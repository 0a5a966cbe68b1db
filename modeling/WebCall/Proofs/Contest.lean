import Mathlib.Data.List.Nodup
import WebCall.Contest

/-!
# Who wins a contest

Of all threads that bring a result to a cell the one that swaps the flag first wins, whatever the
order of all other steps. Its result is stored once and taken at most once, and nobody else's ever
shows. Between the swap and the storing the cell is resolved and empty, and a wait may end without a
result there if the token is set; once the winner has returned, no wait does before the result is
taken.

## Main definitions

* `Contest.Stands`: how far a thread can have come, by its place among the swaps.
* `Contest.Holds`: what is in the cell, and what was taken out of it.
* `Contest.run_winner`: who wins, and what waits return.
-/
namespace WebCall

/-- How many steps a thread has made. -/
def BidStage.made : BidStage → Nat
  | called => 0
  | swapped _ => 1
  | stored => 2
  | returned answer => if answer then 3 else 2

namespace Contest

variable {α : Type} {w w' : Contest α} {m : Move α} {i : Nat} {b : Bid α}

/-! ## Moves -/

theorem go?_eq_some (h : w.go? i = some w') :
    ∃ b b' cell, w.bids[i]? = some b ∧ b.go? w.cell = some (b', cell) ∧
      w' = { w with
        cell
        bids := w.bids.set i b'
        swaps := if b.stage = .called then w.swaps ++ [i] else w.swaps } := by
  obtain ⟨b, hb, h⟩ := Option.bind_eq_some_iff.1 h
  obtain ⟨⟨b', cell⟩, hr, rfl⟩ := Option.map_eq_some_iff.1 h
  exact ⟨b, b', cell, hb, hr, rfl⟩

/-- A round takes the result that is there, or ends the wait without one if the token is set, or
changes nothing. -/
theorem look?_eq_some (h : w.look? = some w') : w.waiting = true ∧
    ((∃ v, w.cell.slot = some v ∧ w' = { w with
        cell := { w.cell with slot := none }
        waiting := false
        results := w.results ++ [some v] }) ∨
      (w.cell.slot = none ∧ w.cancelled = true ∧
        w' = { w with waiting := false, results := w.results ++ [none] }) ∨
      (w.cell.slot = none ∧ w.cancelled = false ∧ w' = w)) := by
  unfold look? at h
  cases hw : w.waiting with
  | false => simp [hw] at h
  | true =>
    refine ⟨rfl, ?_⟩
    cases hs : w.cell.slot with
    | some v =>
      simp only [hw, if_true, ResultCell.round_of_slot_eq_some hs, Option.some.injEq] at h
      exact .inl ⟨v, rfl, h.symm⟩
    | none =>
      cases hc : w.cancelled with
      | true =>
        simp only [hw, if_true, ResultCell.round_of_slot_eq_none hs, hc, Option.some.injEq] at h
        exact .inr (.inl ⟨rfl, rfl, h.symm⟩)
      | false =>
        simp [hw, ResultCell.round_of_slot_eq_none hs, hc] at h
        exact .inr (.inr ⟨rfl, rfl, by rw [← h]; cases w; simp_all⟩)

theorem run_cons_eq_some {moves : List (Move α)} (h : w.run (m :: moves) = some w') :
    ∃ w₁, w.move m = some w₁ ∧ w₁.run moves = some w' :=
  Option.bind_eq_some_iff.1 (by rwa [run, List.foldlM_cons] at h)

/-! ## Who stands where -/

/-- How far the thread at a place can have come, by its place among the swaps. -/
def Stands (swaps : List Nat) (i : Nat) (stage : BidStage) : Prop :=
  (i ∉ swaps ∧ stage = .called) ∨
    (swaps.head? = some i ∧ stage ∈ [.swapped false, .stored, .returned true]) ∨
    (i ∈ swaps ∧ swaps.head? ≠ some i ∧ stage ∈ [.swapped true, .returned false])

/-- What waits took out of the cell. -/
def taken (w : Contest α) : List α := w.results.filterMap id

/-- What is in the cell and what was taken out of it: nothing before the first swap, nothing up to
the storing, then the result of the winner, and in the end nothing again. -/
inductive Holds (w : Contest α) : Prop
  | free (none_ : w.swaps = []) (cell : w.cell = {}) (taken : w.taken = [])
  | claimed {i : Nat} {b : Bid α} (first : w.first? = some i) (bid : w.bids[i]? = some b)
      (come : b.stage = .swapped false) (cell : w.cell = ⟨true, none⟩) (taken : w.taken = [])
  | filled {i : Nat} {b : Bid α} (first : w.first? = some i) (bid : w.bids[i]? = some b)
      (come : b.stage ∈ [.stored, .returned true]) (cell : w.cell = ⟨true, some b.value⟩)
      (taken : w.taken = [])
  | emptied {i : Nat} {b : Bid α} (first : w.first? = some i) (bid : w.bids[i]? = some b)
      (come : b.stage ∈ [.stored, .returned true]) (cell : w.cell = ⟨true, none⟩)
      (taken : w.taken = [b.value])

/-- What is so in every state of a contest. -/
structure Sound (w : Contest α) : Prop where
  nodup : w.swaps.Nodup
  inside : ∀ i ∈ w.swaps, i < w.bids.length
  stands : ∀ i b, w.bids[i]? = some b → Stands w.swaps i b.stage
  holds : w.Holds

theorem sound_empty : Sound ({} : Contest α) where
  nodup := .nil
  inside := by simp
  stands := by simp
  holds := .free rfl rfl rfl

/-- A change that leaves the cell and the winner as they are. -/
theorem Holds.congr (h : w.Holds) (first : w'.first? = w.first?) (cell : w'.cell = w.cell)
    (taken : w'.taken = w.taken)
    (bids : ∀ i b, w.first? = some i → w.bids[i]? = some b → w'.bids[i]? = some b) : w'.Holds := by
  cases h with
  | free none_ cell' taken' =>
    rw [first?, first?, none_, List.head?_nil, List.head?_eq_none_iff] at first
    exact .free first (cell.trans cell') (taken.trans taken')
  | claimed first' bid come cell' taken' =>
    exact .claimed (first.trans first') (bids _ _ first' bid) come (cell.trans cell')
      (taken.trans taken')
  | filled first' bid come cell' taken' =>
    exact .filled (first.trans first') (bids _ _ first' bid) come (cell.trans cell')
      (taken.trans taken')
  | emptied first' bid come cell' taken' =>
    exact .emptied (first.trans first') (bids _ _ first' bid) come (cell.trans cell')
      (taken.trans taken')

/-- The flag is set from the first swap on. -/
theorem Holds.resolved_iff (h : w.Holds) : w.cell.resolved = true ↔ w.swaps ≠ [] := by
  have nonempty {i : Nat} (first : w.first? = some i) : w.swaps ≠ [] := by
    intro none_
    rw [first?, none_] at first
    cases first
  cases h with
  | free none_ cell _ => simp [cell, none_]
  | claimed first _ _ cell _ | filled first _ _ cell _ | emptied first _ _ cell _ =>
    simp [cell, nonempty first]

/-! ## One step -/

/-- The threads after a step of one of them. -/
theorem getElem?_set_cases {bids : List (Bid α)} {b' c : Bid α} {j : Nat}
    (h : (bids.set i b')[j]? = some c) : (j = i ∧ c = b') ∨ (j ≠ i ∧ bids[j]? = some c) := by
  rw [List.getElem?_set] at h
  grind

/-- The step of a thread that is not the winner. -/
theorem Holds.bystander (h : w.Holds) {b' : Bid α} {swaps : List Nat}
    (same : swaps.head? = w.swaps.head?) (other : w.first? ≠ some i) :
    Holds { w with bids := w.bids.set i b', swaps } := by
  refine h.congr same rfl rfl fun j c first hc => ?_
  have apart : i ≠ j := fun e => other (e ▸ first)
  exact (List.getElem?_set_ne apart).trans hc

/-- The step of a thread that has swapped the flag before. -/
theorem Sound.step (s : w.Sound) {b' : Bid α} {cell : ResultCell α}
    (stands : Stands w.swaps i b'.stage)
    (holds : Holds { w with cell, bids := w.bids.set i b' }) :
    Sound { w with cell, bids := w.bids.set i b' } := by
  refine ⟨s.nodup, fun j hj => ?_, fun j c hc => ?_, holds⟩
  · rw [List.length_set]
    exact s.inside j hj
  · rcases getElem?_set_cases hc with ⟨rfl, rfl⟩ | ⟨-, hc⟩
    · exact stands
    · exact s.stands j c hc

theorem Sound.notMem_swaps (s : w.Sound) (hb : w.bids[i]? = some b) (come : b.stage = .called) :
    i ∉ w.swaps := by
  rcases s.stands i b hb with ⟨out, -⟩ | ⟨-, other⟩ | ⟨-, -, other⟩
  · exact out
  · simp [come] at other
  · simp [come] at other

/-- The first swap claims the cell. -/
theorem Sound.swap_of_unresolved (s : w.Sound) (hb : w.bids[i]? = some b)
    (unset : w.cell.resolved = false) :
    Sound { w with
      cell := w.cell.swap.2
      bids := w.bids.set i { b with stage := .swapped w.cell.swap.1 }
      swaps := w.swaps ++ [i] } := by
  have here : i < w.bids.length := (List.getElem?_eq_some_iff.1 hb).1
  have none_ : w.swaps = [] := by
    by_contra some_
    rw [s.holds.resolved_iff.2 some_] at unset
    cases unset
  have before : w.cell.swap.1 = false := unset
  rw [before, none_]
  refine ⟨List.nodup_singleton i, fun j hj => ?_, fun j c hc => ?_, ?_⟩
  · rw [List.length_set]
    exact List.mem_singleton.1 hj ▸ here
  · rcases getElem?_set_cases hc with ⟨rfl, rfl⟩ | ⟨other, hc⟩
    · exact .inr (.inl ⟨rfl, by simp⟩)
    · have stands := s.stands j c hc
      simp only [Stands, none_] at stands
      exact .inl ⟨by simpa using other, by simpa using stands⟩
  · have empty : w.cell = {} ∧ w.taken = [] := by
      cases s.holds with
      | free _ cell taken => exact ⟨cell, taken⟩
      | claimed _ _ _ cell | filled _ _ _ cell | emptied _ _ _ cell => simp [cell] at unset
    refine .claimed (i := i) rfl (List.getElem?_set_self here) rfl ?_ empty.2
    rw [empty.1]
    rfl

/-- A later swap changes nothing but for the thread that made it. -/
theorem Sound.swap_of_resolved (s : w.Sound) (hb : w.bids[i]? = some b)
    (come : b.stage = .called) (set : w.cell.resolved = true) :
    Sound { w with
      cell := w.cell.swap.2
      bids := w.bids.set i { b with stage := .swapped w.cell.swap.1 }
      swaps := w.swaps ++ [i] } := by
  have here : i < w.bids.length := (List.getElem?_eq_some_iff.1 hb).1
  have out := s.notMem_swaps hb come
  have same : (w.swaps ++ [i]).head? = w.swaps.head? :=
    List.head?_append_of_ne_nil _ (s.holds.resolved_iff.1 set)
  have before : w.cell.swap = (true, w.cell) := by
    rw [ResultCell.swap, ← set]
  rw [before]
  refine ⟨?_, fun j hj => ?_, fun j c hc => ?_, ?_⟩
  · exact List.nodup_append.2 ⟨s.nodup, List.nodup_singleton i, by grind⟩
  · rw [List.length_set]
    rcases List.mem_append.1 hj with earlier | last
    · exact s.inside j earlier
    · exact List.mem_singleton.1 last ▸ here
  · simp only [Stands, same, List.mem_append, List.mem_singleton]
    rcases getElem?_set_cases hc with ⟨rfl, rfl⟩ | ⟨other, hc⟩
    · exact .inr (.inr ⟨.inr rfl, fun first => out (List.mem_of_mem_head? first), by simp⟩)
    · rcases s.stands j c hc with ⟨out', stage⟩ | won | ⟨inside, lost⟩
      · exact .inl ⟨by simp [out', other], stage⟩
      · exact .inr (.inl won)
      · exact .inr (.inr ⟨.inl inside, lost⟩)
  · exact s.holds.bystander same fun first => out (List.mem_of_mem_head? first)

/-- A thread that found the flag set returns. -/
theorem Sound.lose (s : w.Sound) (hb : w.bids[i]? = some b) (come : b.stage = .swapped true) :
    Sound { w with bids := w.bids.set i { b with stage := .returned false } } := by
  rcases s.stands i b hb with ⟨-, other⟩ | ⟨-, other⟩ | ⟨inside, later, -⟩
  · simp [come] at other
  · simp [come] at other
  · exact s.step (.inr (.inr ⟨inside, later, by simp⟩)) (s.holds.bystander rfl later)

theorem Sound.first?_eq (s : w.Sound) (hb : w.bids[i]? = some b)
    (come : b.stage ∈ [.swapped false, .stored, .returned true]) : w.first? = some i := by
  rcases s.stands i b hb with ⟨-, other⟩ | ⟨first, -⟩ | ⟨-, -, other⟩
  · simp [other] at come
  · exact first
  · rcases List.mem_cons.1 other with e | e <;> simp_all

/-- Between the first swap and the storing there is nothing in the cell. -/
theorem Sound.claimed (s : w.Sound) (hb : w.bids[i]? = some b) (come : b.stage = .swapped false) :
    w.cell = ⟨true, none⟩ ∧ w.taken = [] := by
  have first := s.first?_eq hb (by simp [come])
  cases s.holds with
  | free none_ => simp [first?, none_] at first
  | claimed _ _ _ cell taken => exact ⟨cell, taken⟩
  | filled first' bid come' | emptied first' bid come' =>
    obtain rfl := Option.some.inj (first.symm.trans first')
    obtain rfl := Option.some.inj (hb.symm.trans bid)
    simp [come] at come'

/-- The winner stores its result. -/
theorem Sound.store (s : w.Sound) (hb : w.bids[i]? = some b) (come : b.stage = .swapped false) :
    Sound { w with
      cell := w.cell.store b.value
      bids := w.bids.set i { b with stage := .stored } } := by
  have first := s.first?_eq hb (by simp [come])
  have here : i < w.bids.length := (List.getElem?_eq_some_iff.1 hb).1
  have claimed := s.claimed hb come
  refine s.step (.inr (.inl ⟨first, by simp⟩)) ?_
  refine .filled first (List.getElem?_set_self here) (by simp) ?_ claimed.2
  rw [claimed.1]
  rfl

/-- The winner returns. -/
theorem Sound.win (s : w.Sound) (hb : w.bids[i]? = some b) (come : b.stage = .stored) :
    Sound { w with bids := w.bids.set i { b with stage := .returned true } } := by
  have first := s.first?_eq hb (by simp [come])
  have here : i < w.bids.length := (List.getElem?_eq_some_iff.1 hb).1
  have bid' : (w.bids.set i { b with stage := .returned true })[i]? =
      some { b with stage := .returned true } := List.getElem?_set_self here
  refine s.step (.inr (.inl ⟨first, by simp⟩)) ?_
  cases s.holds with
  | free none_ => simp [first?, none_] at first
  | claimed first' bid come' =>
    obtain rfl := Option.some.inj (first.symm.trans first')
    obtain rfl := Option.some.inj (hb.symm.trans bid)
    simp [come] at come'
  | filled first' bid come' cell taken =>
    obtain rfl := Option.some.inj (first.symm.trans first')
    obtain rfl := Option.some.inj (hb.symm.trans bid)
    exact .filled first bid' (by simp) cell taken
  | emptied first' bid come' cell taken =>
    obtain rfl := Option.some.inj (first.symm.trans first')
    obtain rfl := Option.some.inj (hb.symm.trans bid)
    exact .emptied first bid' (by simp) cell taken

/-- Every step of a thread that brings a result. -/
theorem Sound.go (s : w.Sound) (h : w.go? i = some w') : w'.Sound := by
  obtain ⟨b, b', cell, hb, step, rfl⟩ := go?_eq_some h
  unfold Bid.go? at step
  split at step
  · next come =>
    cases step
    rw [if_pos come]
    cases set : w.cell.resolved with
    | false => exact s.swap_of_unresolved hb set
    | true => exact s.swap_of_resolved hb come set
  · next come =>
    cases step
    rw [if_neg (by simp [come])]
    exact s.lose hb come
  · next come =>
    cases step
    rw [if_neg (by simp [come])]
    exact s.store hb come
  · next come =>
    cases step
    rw [if_neg (by simp [come])]
    exact s.win hb come
  · cases step

/-- A round of the wait. -/
theorem Sound.look (s : w.Sound) (h : w.look? = some w') : w'.Sound := by
  obtain ⟨-, ⟨v, slot, rfl⟩ | ⟨-, -, rfl⟩ | ⟨-, -, rfl⟩⟩ := look?_eq_some h
  · refine ⟨s.nodup, s.inside, s.stands, ?_⟩
    cases s.holds with
    | free _ cell | claimed _ _ _ cell | emptied _ _ _ cell => simp [cell] at slot
    | filled first bid come cell taken =>
      rw [cell, Option.some.injEq] at slot
      refine .emptied first bid come (by rw [cell]) ?_
      rw [Contest.taken] at taken ⊢
      rw [List.filterMap_append, taken, slot]
      rfl
  · refine ⟨s.nodup, s.inside, s.stands, s.holds.congr rfl rfl ?_ fun _ _ _ hb => hb⟩
    simp [Contest.taken]
  · exact s

/-- Every step keeps what is so in a contest. -/
theorem Sound.move (s : w.Sound) (h : w.move m = some w') : w'.Sound := by
  cases m with
  | call value =>
    cases h
    have kept {j : Nat} {c : Bid α} (hc : w.bids[j]? = some c) :
        (w.bids ++ [(⟨value, .called⟩ : Bid α)])[j]? = some c := by
      rw [List.getElem?_append_left (List.getElem?_eq_some_iff.1 hc).1]
      exact hc
    refine ⟨s.nodup, fun j hj => ?_, fun j c hc => ?_, s.holds.congr rfl rfl rfl fun _ _ _ => kept⟩
    · have := s.inside j hj
      simp only [List.length_append, List.length_singleton]
      omega
    · by_cases old : j < w.bids.length
      · exact s.stands j c (by rwa [List.getElem?_append_left old] at hc)
      · -- The new thread has not swapped yet.
        have out : j ∉ w.swaps := fun there => old (s.inside j there)
        rw [List.getElem?_append_right (Nat.le_of_not_lt old), List.getElem?_singleton] at hc
        split at hc <;> cases hc
        exact .inl ⟨out, rfl⟩
  | go place => exact s.go h
  | cancel =>
    cases h
    exact ⟨s.nodup, s.inside, s.stands, s.holds.congr rfl rfl rfl fun _ _ _ hb => hb⟩
  | enter =>
    obtain ⟨-, entered⟩ := Option.ite_none_left_eq_some.1 h
    cases entered
    exact ⟨s.nodup, s.inside, s.stands, s.holds.congr rfl rfl rfl fun _ _ _ hb => hb⟩
  | look => exact s.look h

/-- Every run keeps what is so in a contest. -/
theorem Sound.run {moves : List (Move α)} (s : w.Sound) (h : w.run moves = some w') : w'.Sound := by
  induction moves generalizing w with
  | nil =>
    cases h
    exact s
  | cons m rest ih =>
    obtain ⟨w₁, first, later⟩ := run_cons_eq_some h
    exact ih (s.move first) later

/-! ## What steps do not change -/

/-- The step of a thread that has not won changes nothing but how far it has come. -/
theorem Sound.go_of_ne_first (s : w.Sound) (h : w.go? i = some w') (other : w'.first? ≠ some i) :
    w' = { w with bids := w'.bids, swaps := w'.swaps } := by
  obtain ⟨b, b', cell, hb, step, rfl⟩ := go?_eq_some h
  suffices cell = w.cell by rw [this]
  unfold Bid.go? at step
  split at step
  · next come =>
    cases step
    cases set : w.cell.resolved with
    | true => rw [ResultCell.swap, ← set]
    | false =>
      -- The first to swap has won.
      have none_ : w.swaps = [] := by
        by_contra some_
        rw [s.holds.resolved_iff.2 some_] at set
        cases set
      simp [first?, come, none_] at other
  · cases step
    rfl
  · next come =>
    cases step
    exact absurd (s.first?_eq hb (by simp [come])) (by simpa [first?, come] using other)
  · cases step
    rfl
  · cases step

/-- The flag is never unset. -/
theorem resolved_move (h : w.move m = some w') (set : w.cell.resolved = true) :
    w'.cell.resolved = true := by
  cases m with
  | call value | cancel =>
    cases h
    exact set
  | enter =>
    obtain ⟨-, entered⟩ := Option.ite_none_left_eq_some.1 h
    cases entered
    exact set
  | look =>
    obtain ⟨-, ⟨v, -, rfl⟩ | ⟨-, -, rfl⟩ | ⟨-, -, rfl⟩⟩ := look?_eq_some h <;> exact set
  | go place =>
    obtain ⟨b, b', cell, -, step, rfl⟩ := go?_eq_some h
    unfold Bid.go? at step
    split at step <;> cases step
    · rfl
    · exact set
    · exact set
    · exact set

theorem resolved_run {moves : List (Move α)} (h : w.run moves = some w')
    (set : w.cell.resolved = true) : w'.cell.resolved = true := by
  induction moves generalizing w with
  | nil =>
    cases h
    exact set
  | cons m rest ih =>
    obtain ⟨w₁, first, later⟩ := run_cons_eq_some h
    exact ih later (resolved_move first set)

/-- What a step adds to the results of waits. -/
theorem results_move (h : w.move m = some w') :
    w'.results = w.results ∨ (∃ v, m = .look ∧ w.cell.slot = some v ∧
        w'.results = w.results ++ [some v]) ∨
      (m = .look ∧ w.cell.slot = none ∧ w.cancelled = true ∧
        w'.results = w.results ++ [none]) := by
  cases m with
  | call value | cancel =>
    cases h
    exact .inl rfl
  | enter =>
    obtain ⟨-, entered⟩ := Option.ite_none_left_eq_some.1 h
    cases entered
    exact .inl rfl
  | look =>
    obtain ⟨-, ⟨v, slot, rfl⟩ | ⟨slot, set, rfl⟩ | ⟨-, -, rfl⟩⟩ := look?_eq_some h
    · exact .inr (.inl ⟨v, rfl, slot, rfl⟩)
    · exact .inr (.inr ⟨rfl, slot, set, rfl⟩)
    · exact .inl rfl
  | go place =>
    obtain ⟨b, b', cell, -, -, rfl⟩ := go?_eq_some h
    exact .inl rfl

theorem results_prefix_run {moves : List (Move α)} (h : w.run moves = some w') :
    w.results <+: w'.results := by
  induction moves generalizing w with
  | nil =>
    cases h
    exact List.prefix_rfl
  | cons m rest ih =>
    obtain ⟨w₁, first, later⟩ := run_cons_eq_some h
    refine List.IsPrefix.trans ?_ (ih later)
    rcases results_move first with same | ⟨v, -, -, more⟩ | ⟨-, -, -, more⟩
    · exact same ▸ List.prefix_rfl
    · rw [more]
      exact List.prefix_append ..
    · rw [more]
      exact List.prefix_append ..

/-! ## Waits that begin after the winner has returned -/

/-- A wait is going on, and a result is there for it. -/
structure Served (w : Contest α) (results : List (Option α)) (v : α) : Prop where
  sound : w.Sound
  waiting : w.waiting = true
  slot : w.cell.slot = some v
  results : w.results = results

variable {results : List (Option α)} {v : α}

/-- Only a round of the wait takes the result. -/
theorem Served.move (s : w.Served results v) (h : w.move m = some w') (other : m ≠ .look) :
    w'.Served results v := by
  have sound := s.sound.move h
  cases m with
  | call value | cancel =>
    cases h
    exact ⟨sound, s.waiting, s.slot, s.results⟩
  | enter => simp [Contest.move, s.waiting] at h
  | look => exact absurd rfl other
  | go place =>
    obtain ⟨b, b', cell, hb, step, rfl⟩ := go?_eq_some h
    refine ⟨sound, s.waiting, ?_, s.results⟩
    unfold Bid.go? at step
    split at step
    · cases step
      exact s.slot
    · cases step
      exact s.slot
    · next come =>
      have empty := s.slot
      rw [(s.sound.claimed hb come).1] at empty
      cases empty
    · cases step
      exact s.slot
    · cases step

/-- The first round of the wait takes the result; without a round the wait goes on. -/
theorem Served.run {moves : List (Move α)} (s : w.Served results v)
    (h : w.run moves = some w') :
    (.look ∈ moves → w'.results[results.length]? = some (some v)) ∧
      (.look ∉ moves → w'.Served results v) := by
  induction moves generalizing w with
  | nil =>
    cases h
    exact ⟨by simp, fun _ => s⟩
  | cons m rest ih =>
    obtain ⟨w₁, first, later⟩ := run_cons_eq_some h
    by_cases look : m = .look
    · subst look
      refine ⟨fun _ => ?_, fun out => absurd List.mem_cons_self out⟩
      obtain ⟨-, ⟨u, slot, rfl⟩ | ⟨slot, -⟩ | ⟨slot, -⟩⟩ := look?_eq_some first
      · obtain rfl := Option.some.inj (s.slot.symm.trans slot)
        obtain ⟨more, hmore⟩ := results_prefix_run later
        simp [← hmore, s.results]
      · cases s.slot.symm.trans slot
      · cases s.slot.symm.trans slot
    · obtain ⟨taken, waits⟩ := ih (s.move first look) later
      exact ⟨fun there => taken ((List.mem_cons.1 there).resolve_left (Ne.symm look)),
        fun out => waits fun there => out (List.mem_cons_of_mem m there)⟩

/-! ## How many steps a thread makes -/

/-- Whether a step is one of the thread at a place. -/
def Move.goes (i : Nat) : Move α → Bool
  | .go place => place == i
  | .call _ | .cancel | .enter | .look => false

/-- How many steps the thread at a place has made. -/
def stepsOf (w : Contest α) (i : Nat) : Nat := (w.bids[i]?).elim 0 (·.stage.made)

theorem stepsOf_move (h : w.move m = some w') (i : Nat) :
    w'.stepsOf i = w.stepsOf i + if m.goes i then 1 else 0 := by
  cases m with
  | call value =>
    cases h
    by_cases old : i < w.bids.length
    · simp [stepsOf, List.getElem?_append_left old, Move.goes]
    · have none_ : w.bids[i]? = none := List.getElem?_eq_none (Nat.le_of_not_lt old)
      rw [stepsOf, stepsOf, none_, List.getElem?_append_right (Nat.le_of_not_lt old),
        List.getElem?_singleton]
      split <;> rfl
  | cancel =>
    cases h
    rfl
  | enter =>
    obtain ⟨-, entered⟩ := Option.ite_none_left_eq_some.1 h
    cases entered
    rfl
  | look => obtain ⟨-, ⟨v, -, rfl⟩ | ⟨-, -, rfl⟩ | ⟨-, -, rfl⟩⟩ := look?_eq_some h <;> rfl
  | go place =>
    obtain ⟨b, b', cell, hb, step, rfl⟩ := go?_eq_some h
    have here : place < w.bids.length := (List.getElem?_eq_some_iff.1 hb).1
    by_cases own : place = i
    · subst own
      have more : b'.stage.made = b.stage.made + 1 := by
        unfold Bid.go? at step
        split at step <;> cases step <;> simp_all [BidStage.made]
      rw [stepsOf, stepsOf, hb, List.getElem?_set_self here]
      simpa [Move.goes] using more
    · simp [stepsOf, Move.goes, own]

theorem stepsOf_run {moves : List (Move α)} (h : w.run moves = some w') (i : Nat) :
    w'.stepsOf i = w.stepsOf i + moves.countP (Move.goes i) := by
  induction moves generalizing w with
  | nil =>
    cases h
    rfl
  | cons m rest ih =>
    obtain ⟨w₁, first, later⟩ := run_cons_eq_some h
    rw [ih later, stepsOf_move first, List.countP_cons]
    omega

/-! ## The winner -/

theorem Sound.returned_iff (s : w.Sound) {answer : Bool} (hb : w.bids[i]? = some b)
    (come : b.stage = .returned answer) : answer = true ↔ w.first? = some i := by
  rcases s.stands i b hb with ⟨-, other⟩ | ⟨first, won⟩ | ⟨-, later, lost⟩
  · rw [come] at other
    cases other
  · rw [come] at won
    simpa [first?, first] using won
  · rw [come] at lost
    have unlike : ¬ w.first? = some i := later
    simpa [unlike] using lost

theorem Sound.length_taken_le (s : w.Sound) : w.taken.length ≤ 1 := by
  cases s.holds with
  | free _ _ taken | claimed _ _ _ _ taken | filled _ _ _ _ taken | emptied _ _ _ _ taken =>
    simp [taken]

/-- What was taken is the result of the winner. -/
theorem Sound.exists_winner (s : w.Sound) (h : some v ∈ w.results) :
    ∃ i b, w.first? = some i ∧ w.bids[i]? = some b ∧ b.value = v := by
  have there : v ∈ w.taken := List.mem_filterMap.2 ⟨some v, h, rfl⟩
  cases s.holds with
  | free _ _ taken | claimed _ _ _ _ taken | filled _ _ _ _ taken =>
    rw [taken] at there
    cases there
  | emptied first bid _ _ taken =>
    rw [taken, List.mem_singleton] at there
    exact ⟨_, _, first, bid, there.symm⟩

/-- Once the winner has returned, its result is there until a wait takes it. -/
theorem Sound.slot_eq (s : w.Sound) (hb : w.bids[i]? = some b) (come : b.stage = .returned true)
    (untaken : ∀ r ∈ w.results, r = none) : w.cell.slot = some b.value := by
  have first := s.first?_eq hb (by simp [come])
  have none_ : w.taken = [] := by
    rw [taken, List.filterMap_eq_nil_iff]
    exact fun r hr => untaken r hr
  cases s.holds with
  | free none_ => simp [first?, none_] at first
  | claimed first' bid come' =>
    obtain rfl := Option.some.inj (first.symm.trans first')
    obtain rfl := Option.some.inj (hb.symm.trans bid)
    simp [come] at come'
  | filled first' bid come' cell taken =>
    obtain rfl := Option.some.inj (first.symm.trans first')
    obtain rfl := Option.some.inj (hb.symm.trans bid)
    rw [cell]
  | emptied _ _ _ _ taken =>
    rw [none_] at taken
    cases taken

/-- The thread that swaps the flag first wins: it returns `true` and all others return `false` and
change nothing, each after three steps at most. A wait returns only the winner's result, and only
one does; it returns without a result only from a round that finds the slot empty and the token set,
and never if it begins after the winner has returned while its result was not taken. The flag stays
set. -/
theorem run_winner {moves : List (Move α)} (h : run {} moves = some w) :
    (∀ i (b : Bid α) answer, w.bids[i]? = some b → b.stage = .returned answer →
      (answer = true ↔ w.first? = some i)) ∧
    (∀ i b, w.bids[i]? = some b → (∃ answer, b.stage = .returned answer) ∨
      ((w.move (.go i)).isSome = true ∧ moves.countP (Move.goes i) < 3)) ∧
    (∀ i w', w.move (.go i) = some w' → w'.first? ≠ some i →
      w' = { w with bids := w'.bids, swaps := w'.swaps }) ∧
    (∀ v, some v ∈ w.results →
      ∃ i b, w.first? = some i ∧ w.bids[i]? = some b ∧ b.value = v) ∧
    w.results.countP Option.isSome ≤ 1 ∧
    (∀ m w', w.move m = some w' → w'.results = w.results ∨
      (∃ v, m = .look ∧ w.cell.slot = some v ∧ w'.results = w.results ++ [some v]) ∨
      (m = .look ∧ w.cell.slot = none ∧ w.cancelled = true ∧
        w'.results = w.results ++ [none])) ∧
    (∀ (i : Nat) (b : Bid α) later w', w.bids[i]? = some b → b.stage = .returned true →
      (∀ r ∈ w.results, r = none) → w.run (.enter :: later) = some w' →
      (.look ∈ later → w'.results[w.results.length]? = some (some b.value)) ∧
      (.look ∉ later → w'.results = w.results ∧ (w'.move .look).isSome = true)) ∧
    (w.cell.resolved = true →
      ∀ later w', w.run later = some w' → w'.cell.resolved = true) := by
  have s : w.Sound := sound_empty.run h
  refine ⟨fun i b answer => s.returned_iff, fun i b hb => ?_, fun i w' => s.go_of_ne_first,
    fun v => s.exists_winner, ?_, fun m w' => results_move,
    fun i b later w' hb come none_ more => ?_, fun set later w' more => resolved_run more set⟩
  · have made : b.stage.made = moves.countP (Move.goes i) := by
      have steps := stepsOf_run h i
      rw [stepsOf, hb] at steps
      simpa [stepsOf] using steps
    cases come : b.stage with
    | returned answer => exact .inl ⟨answer, rfl⟩
    | called | stored =>
      exact .inr ⟨by simp [move, go?, Bid.go?, hb, come], by simp [← made, come, BidStage.made]⟩
    | swapped before =>
      refine .inr ⟨?_, by simp [← made, come, BidStage.made]⟩
      cases before <;> simp [move, go?, Bid.go?, hb, come]
  · calc w.results.countP Option.isSome
        = w.taken.length := (List.length_filterMap_eq_countP (f := id)).symm
      _ ≤ 1 := s.length_taken_le
  · obtain ⟨w₁, first, more⟩ := run_cons_eq_some more
    obtain ⟨-, entered⟩ := Option.ite_none_left_eq_some.1 first
    have served : w₁.Served w.results b.value := by
      refine ⟨s.move first, ?_, ?_, ?_⟩
      all_goals cases entered
      · rfl
      · exact s.slot_eq hb come none_
      · rfl
    obtain ⟨taken, waits⟩ := served.run more
    refine ⟨taken, fun out => ⟨(waits out).results, ?_⟩⟩
    simp [move, look?, (waits out).waiting, ResultCell.round_of_slot_eq_some (waits out).slot]

/-- The second of two callers swaps the flag first. A wait ends without a result between its swap
and its storing, and another one, with the token still set, gets the result. -/
theorem run_winner_second :
    let moves : List (Move Nat) := [.call 1, .call 2, .enter, .go 1, .cancel, .look, .go 0, .go 1,
      .go 0, .go 1]
    ∃ w w', run {} moves = some w ∧ w.bids[1]? = some ⟨2, .returned true⟩ ∧ w.first? = some 1 ∧
      w.results = [none] ∧ w.cancelled = true ∧ w.run [.enter, .look] = some w' ∧
      w'.results[1]? = some (some 2) := by
  intro moves
  let w : Contest Nat :=
    { cell := ⟨true, some 2⟩, cancelled := true, swaps := [1, 0], results := [none],
      bids := [⟨1, .returned false⟩, ⟨2, .returned true⟩] }
  let w' : Contest Nat := { w with cell := ⟨true, none⟩, results := [none, some 2] }
  have run : run {} moves = some w := by decide
  have later : w.run [.enter, .look] = some w' := by decide
  obtain ⟨answers, -, -, -, -, -, served, -⟩ := run_winner run
  have won : w.first? = some 1 := (answers 1 ⟨2, .returned true⟩ true rfl rfl).1 rfl
  have taken := (served 1 ⟨2, .returned true⟩ [.look] w' rfl rfl (by decide) later).1 (by simp)
  exact ⟨w, w', run, rfl, won, rfl, rfl, later, taken⟩

end Contest

end WebCall
