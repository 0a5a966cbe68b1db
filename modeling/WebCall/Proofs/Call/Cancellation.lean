import WebCall.Call.History
import WebCall.Proofs.Call.Course

/-!
# Cancellation

Tokens may be set at any time: before a call, by the client during an exchange, or by the scheduler
before it runs, drops or keeps a task. Once its token is set a call sends nothing more, and what is
left of it changes nothing for anybody else. Which result it has follows from its last reply and
from what became of its last task.

## Main definitions

* `Bench.Still`: two benches that differ at most in what was brought to cells.
* `Bench.Inert`: the tasks that are kept have set tokens. This holds throughout every history.
* `Bench.Alike`: two benches that answer alike from now on.
-/
namespace WebCall.Call.Bench

variable {σ : Type} {client : Client σ} {b b' b₁ b₂ : Bench σ}

/-! ## Nothing is sent -/

/-- Between two benches nothing was built, sent or scheduled and no token was set. -/
structure Still (b b' : Bench σ) : Prop where
  state : b'.client = b.client
  tokens : b'.tokens = b.tokens
  cells : b'.cells.length = b.cells.length
  parked : b'.parked = b.parked
  sent : b'.sent = b.sent
  builds : b'.builds = b.builds
  delays : b'.delays = b.delays

namespace Still

theorem refl (b : Bench σ) : Still b b := ⟨rfl, rfl, rfl, rfl, rfl, rfl, rfl⟩

theorem trans {b'' : Bench σ} (h : Still b b') (h' : Still b' b'') : Still b b'' where
  state := h'.state.trans h.state
  tokens := h'.tokens.trans h.tokens
  cells := h'.cells.trans h.cells
  parked := h'.parked.trans h.parked
  sent := h'.sent.trans h.sent
  builds := h'.builds.trans h.builds
  delays := h'.delays.trans h.delays

theorem resolve (b : Bench σ) (i : Nat) (o : Outcome) : Still b (b.resolve i o) := by
  constructor <;> simp [cells_resolve]

theorem abandon (b : Bench σ) (c : Caller) : Still b (b.abandon c) := by
  rcases b.abandon_eq_or c with h | h <;> rw [h]
  · exact refl b
  · exact resolve b _ _

theorem await (b : Bench σ) (i : Nat) (t : TokenId) : Still b (b.await i t).2 := by
  rw [snd_await]
  constructor <;> simp [Bench.sent, Bench.builds, Bench.delays]

/-- An attempt that begins with its token set sends nothing. -/
theorem attempt {c : Caller} (set : b.tokens.isCancelled c.token = true)
    (handlings : List Handling) : Still b (b.attempt client c handlings) := by
  rw [attempt_of_isCancelled _ _ _ _ set]
  exact resolve b _ _

theorem answer (h : Still b b') (result : Option Outcome) :
    b.answer b' result = .silent result := by
  simp [Bench.answer, Answer.silent, h.builds, h.sent, h.delays]

end Still

/-- Acts on one parked task after the other that each leave the bench still. -/
theorem still_foldl {f : Bench σ → Parked → Bench σ} {ps : List Parked} (tokens : Tokens)
    (h : ∀ p ∈ ps, ∀ b : Bench σ, b.tokens = tokens → Still b (f b p)) (hb : b.tokens = tokens) :
    Still b (ps.foldl f b) := by
  induction ps generalizing b with
  | nil => exact .refl b
  | cons p ps ih =>
    have first := h p (List.mem_cons_self ..) b hb
    exact first.trans (ih (fun q hq => h q (List.mem_cons_of_mem _ hq)) (first.tokens.trans hb))

/-! ## The tasks that are kept -/

/-- The tasks that are kept belong to calls whose tokens are set. -/
def Inert (b : Bench σ) : Prop := ∀ p ∈ b.parked, b.tokens.isCancelled p.caller.token = true

/-- Running the tasks that are kept sends nothing. -/
theorem still_runParked (client : Client σ) (h : Inert b) :
    Still { b with parked := [] } (b.runParked client) := by
  refine still_foldl b.tokens (fun p hp x hx => ?_) rfl
  exact .attempt (by rw [hx]; exact h p hp) _

/-- Dropping the tasks that are kept sends nothing. -/
theorem still_dropParked (b : Bench σ) : Still { b with parked := [] } b.dropParked :=
  still_foldl b.tokens (fun _ _ x _ => .abandon x _) rfl

/-! ## Calls -/

variable {order : Order} {token : TokenId} {handlings : List Handling}

/-- A call whose token is set before it begins fails without building, sending or scheduling. -/
theorem request_of_isCancelled (client : Client σ) (handlings : List Handling)
    (credential : Text.isAllBlank order.authorization = false)
    (set : b.tokens.isCancelled token = true) :
    (b.request client order token handlings).1 = some (.error (.ofTransport .interrupted)) ∧
      Still { b with cells := b.cells ++ [{}] } (b.request client order token handlings).2 := by
  let b₀ : Bench σ := { b with cells := b.cells ++ [{}] }
  have inside : b.cells.length < b₀.cells.length := by simp [b₀]
  have empty : b₀.cellOf b.cells.length = {} := by simp [b₀, cellOf]
  have run : b.request client order token handlings =
      (b₀.attempt client (order.caller token b.cells.length 0) handlings).await b.cells.length
        token := by
    simp only [request, credential]
    rfl
  rw [run]
  constructor
  · refine fst_await_of_slot_eq_some _ ?_ token
    rw [attempt_of_isCancelled _ _ _ _ set, Order.cell_caller, cellOf_resolve_self _ inside,
      empty, ResultCell.resolve_of_unresolved rfl]
  · exact (Still.attempt set handlings).trans (.await _ _ _)

theorem Finished.inert {j : Nat} {r : Option Outcome × Bench σ} (made : b.tokens.Made token)
    (h : Finished client order token b handlings j r) (inert : Inert b) : Inert r.2 := by
  intro p hp
  rw [h.parked, List.mem_append] at hp
  rw [h.tokens]
  rcases hp with hp | hp
  · exact Tokens.isCancelled_cancelIf_of_isCancelled (inert p hp)
  · split at hp
    · next kept =>
      rw [List.mem_singleton.1 hp, Order.token_caller, setsTokenAt_of_keptAt client _ kept,
        Tokens.isCancelled_cancelIf_self made, Bool.true_or]
    · cases hp

/-! ## Histories -/

/-- What holds of a bench throughout every history. -/
structure Orderly (b : Bench σ) : Prop where
  /-- The tasks that are kept belong to calls whose tokens are set. -/
  inert : Inert b
  /-- Every request was sent with the token of its call not set. -/
  unset : ∀ q ∈ b.sent, q.cancelled = false
  /-- A builder was invoked for every request, and for nothing else. -/
  built : b.builds = b.sent.length

theorem Still.orderly (h : Still b b') (ob : Orderly b) : Orderly b' where
  inert p hp := by
    rw [h.tokens]
    exact ob.inert p (h.parked ▸ hp)
  unset q hq := ob.unset q (h.sent ▸ hq)
  built := by rw [h.builds, h.sent, ob.built]

/-- What an act makes of a bench on which the kept tasks are inert: it makes or sets a token, or it
leaves the bench still but for its cells and its kept tasks, or it is a call that goes up to its
last attempt. -/
inductive Change (client : Client σ) (b : Bench σ) (r : Option Outcome × Bench σ) : Prop
  | tokens (t : Tokens) (same : r.2 = { b with tokens := t })
      (keeps : ∀ i, b.tokens.isCancelled i = true → t.isCancelled i = true)
  | still (cells : List (ResultCell Outcome)) (parked : List Parked)
      (fewer : ∀ p ∈ parked, p ∈ b.parked) (same : Still { b with cells, parked } r.2)
  | finished (order : Order) (token : TokenId) (handlings : List Handling) (j : Nat)
      (made : b.tokens.Made token) (run : Finished client order token b handlings j r)

/-- What a call makes of a bench. -/
theorem change_request (client : Client σ) (order : Order) (handlings : List Handling)
    (made : b.tokens.Made token) : Change client b (b.request client order token handlings) := by
  cases credential : Text.isAllBlank order.authorization with
  | true => exact .tokens b.tokens (by simp [request, credential]) fun _ set => set
  | false =>
    cases set : b.tokens.isCancelled token with
    | true =>
      exact .still _ b.parked (fun _ hp => hp)
        (request_of_isCancelled client handlings credential set).2
    | false =>
      obtain ⟨j, -, on, off⟩ := order.exists_last client b.client handlings
      exact .finished order token handlings j made
        (request_of_not_goesOn client token credential made set on off)

theorem change_of_after? (inert : Inert b) {a : Act} {r : Option Outcome × Bench σ}
    (h : b.after? client a = some r) : Change client b r := by
  cases a with
  | create =>
    cases h
    exact .tokens _ rfl fun _ set => Tokens.isCancelled_create_of_isCancelled set
  | call order token handlings =>
    simp only [after?, Option.ite_none_right_eq_some, Option.some.injEq] at h
    obtain ⟨made, rfl⟩ := h
    exact change_request client order handlings made
  | cancel token =>
    simp only [after?, Option.ite_none_right_eq_some, Option.some.injEq] at h
    obtain ⟨-, rfl⟩ := h
    exact .tokens _ rfl fun _ set => Tokens.isCancelled_cancel_of_isCancelled set
  | runParked =>
    cases h
    exact .still b.cells [] (by simp) (still_runParked client inert)
  | dropParked =>
    cases h
    exact .still b.cells [] (by simp) (still_dropParked b)

/-- Every act keeps a bench orderly. -/
theorem Orderly.after? (ob : Orderly b) {a : Act} {r : Option Outcome × Bench σ}
    (h : b.after? client a = some r) : Orderly r.2 := by
  cases change_of_after? ob.inert h with
  | tokens t same keeps =>
    rw [same]
    exact ⟨fun p hp => keeps _ (ob.inert p hp), ob.unset, ob.built⟩
  | still cells parked fewer same =>
    exact same.orderly ⟨fun p hp => ob.inert p (fewer p hp), ob.unset, ob.built⟩
  | finished order token handlings j made run =>
    refine ⟨run.inert made ob.inert, ?_, ?_⟩
    · intro q hq
      rw [run.sent, List.mem_append] at hq
      rcases hq with hq | hq
      · exact ob.unset q hq
      · obtain ⟨_, -, rfl⟩ := List.mem_map.1 hq
        rfl
    · simp [run.builds, run.sent, ob.built]

/-- Throughout every history the bench is orderly. -/
theorem Orderly.history? (ob : Orderly b) {acts : List Act} {r : List Answer × Bench σ}
    (h : b.history? client acts = some r) : Orderly r.2 := by
  induction acts generalizing b r with
  | nil =>
    cases h
    exact ob
  | cons a rest ih =>
    simp only [Bench.history?, act?, Option.bind_eq_some_iff, Option.map_eq_some_iff] at h
    obtain ⟨_, ⟨r₁, first, rfl⟩, r₂, later, rfl⟩ := h
    exact ih (r := r₂) (ob.after? first) later

/-- Two benches that answer alike from now on: the client and the tokens are in the same state, and
nothing that was kept can do anything. -/
structure Alike (b₁ b₂ : Bench σ) : Prop where
  state : b₁.client = b₂.client
  tokens : b₁.tokens = b₂.tokens
  inert_left : Inert b₁
  inert_right : Inert b₂

/-- What can be seen of a call whose last attempt is known. -/
theorem Finished.answer {j : Nat} {r : Option Outcome × Bench σ}
    (h : Finished client order token b handlings j r) :
    b.answer r.2 r.1 = ⟨some (order.resultAt client b.client handlings j), j + 1,
      (List.range (j + 1)).map order.sentAt,
      (List.range (j + 1)).filterMap (order.waitAt? client b.client)⟩ := by
  simp [Bench.answer, h.result, h.builds, h.sent, h.delays]

/-- Nothing is seen of what is done to tokens. -/
theorem answer_mapTokens (b : Bench σ) (t : Tokens) :
    b.answer { b with tokens := t } none = .silent none := by
  simp [Bench.answer, Answer.silent, Bench.builds, Bench.sent, Bench.delays]

namespace Alike

/-- Two benches stay alike under acts that leave both still but for cells and kept tasks. -/
theorem of_still {c₁ c₂ : Bench σ} (h : Alike b₁ b₂) {cells₁ cells₂ : List (ResultCell Outcome)}
    {parked₁ parked₂ : List Parked} (fewer₁ : ∀ p ∈ parked₁, p ∈ b₁.parked)
    (fewer₂ : ∀ p ∈ parked₂, p ∈ b₂.parked)
    (still₁ : Still { b₁ with cells := cells₁, parked := parked₁ } c₁)
    (still₂ : Still { b₂ with cells := cells₂, parked := parked₂ } c₂) : Alike c₁ c₂ where
  state := by rw [still₁.state, still₂.state, h.state]
  tokens := by rw [still₁.tokens, still₂.tokens, h.tokens]
  inert_left p hp := by
    rw [still₁.parked] at hp
    rw [still₁.tokens]
    exact h.inert_left p (fewer₁ p hp)
  inert_right p hp := by
    rw [still₂.parked] at hp
    rw [still₂.tokens]
    exact h.inert_right p (fewer₂ p hp)

/-- Two benches that are alike give the same answer to a call, and stay alike. -/
theorem request (h : Alike b₁ b₂) (client : Client σ) (order : Order) (handlings : List Handling)
    (made : b₁.tokens.Made token) :
    let r₁ := b₁.request client order token handlings
    let r₂ := b₂.request client order token handlings
    b₁.answer r₁.2 r₁.1 = b₂.answer r₂.2 r₂.1 ∧ Alike r₁.2 r₂.2 := by
  cases credential : Text.isAllBlank order.authorization with
  | true => simp [Bench.request, credential, Bench.answer, h]
  | false =>
    cases set : b₁.tokens.isCancelled token with
    | true =>
      obtain ⟨result₁, still₁⟩ := request_of_isCancelled client handlings credential set
      obtain ⟨result₂, still₂⟩ := request_of_isCancelled client handlings credential
        (h.tokens ▸ set)
      refine ⟨?_, h.of_still (fun _ hp => hp) (fun _ hp => hp) still₁ still₂⟩
      rw [result₁, result₂]
      exact (still₁.answer _).trans (still₂.answer _).symm
    | false =>
      obtain ⟨j, -, on, off⟩ := order.exists_last client b₁.client handlings
      have h₁ := request_of_not_goesOn client token credential made set on off
      rw [h.state] at on off
      have h₂ := request_of_not_goesOn client token credential (h.tokens ▸ made)
        (h.tokens ▸ set) on off
      refine ⟨?_, ?_, ?_, h₁.inert made h.inert_left, h₂.inert (h.tokens ▸ made) h.inert_right⟩
      · rw [h₁.answer, h₂.answer, h.state]
      · rw [h₁.state, h₂.state, h.state]
      · rw [h₁.tokens, h₂.tokens, h.tokens, h.state]

/-- Two benches stay alike when the same is done to their tokens. -/
theorem mapTokens (h : Alike b₁ b₂) {f : Tokens → Tokens}
    (keeps : ∀ t i, t.isCancelled i = true → (f t).isCancelled i = true) :
    Alike { b₁ with tokens := f b₁.tokens } { b₂ with tokens := f b₂.tokens } where
  state := h.state
  tokens := congrArg f h.tokens
  inert_left p hp := keeps _ _ (h.inert_left p hp)
  inert_right p hp := keeps _ _ (h.inert_right p hp)

/-- Two benches that are alike give the same answer to every act, and stay alike. -/
theorem act? (h : Alike b₁ b₂) (client : Client σ) (a : Act) :
    (b₁.act? client a = none ∧ b₂.act? client a = none) ∨
    ∃ answer c₁ c₂, b₁.act? client a = some (answer, c₁) ∧ b₂.act? client a = some (answer, c₂) ∧
      Alike c₁ c₂ := by
  cases a with
  | create =>
    have silent : ∀ b : Bench σ, b.act? client .create =
        some (.silent none, { b with tokens := b.tokens.create.2 }) := by
      intro b
      exact congrArg (fun x => some (x, _)) (answer_mapTokens b _)
    exact .inr ⟨_, _, _, silent b₁, silent b₂,
      h.mapTokens (f := fun t => t.create.2) fun _ _ => Tokens.isCancelled_create_of_isCancelled⟩
  | call order token handlings =>
    by_cases made : b₁.tokens.Made token
    · obtain ⟨same, alike⟩ := h.request client order handlings made
      refine .inr ⟨_, _, _, by rw [Bench.act?, after?, if_pos made]; rfl, ?_, alike⟩
      rw [Bench.act?, after?, if_pos (h.tokens ▸ made), same]
      rfl
    · refine .inl ⟨by rw [Bench.act?, after?, if_neg made]; rfl, ?_⟩
      rw [Bench.act?, after?, if_neg (h.tokens ▸ made)]
      rfl
  | cancel token =>
    by_cases made : b₁.tokens.Made token
    · have silent : ∀ b : Bench σ, b.tokens.Made token → b.act? client (.cancel token) =
          some (.silent none, { b with tokens := b.tokens.cancel token }) := by
        intro b made
        rw [Bench.act?, after?, if_pos made]
        exact congrArg (fun x => some (x, _)) (answer_mapTokens b _)
      exact .inr ⟨_, _, _, silent b₁ made, silent b₂ (h.tokens ▸ made),
        h.mapTokens (f := fun t => t.cancel token) fun _ _ =>
          Tokens.isCancelled_cancel_of_isCancelled⟩
    · refine .inl ⟨by rw [Bench.act?, after?, if_neg made]; rfl, ?_⟩
      rw [Bench.act?, after?, if_neg (h.tokens ▸ made)]
      rfl
  | runParked =>
    have still₁ := still_runParked client h.inert_left
    have still₂ := still_runParked client h.inert_right
    refine .inr ⟨.silent none, _, _, ?_, ?_, h.of_still (by simp) (by simp) still₁ still₂⟩
    · exact congrArg (fun x => some (x, _)) (still₁.answer none)
    · exact congrArg (fun x => some (x, _)) (still₂.answer none)
  | dropParked =>
    have still₁ := still_dropParked b₁
    have still₂ := still_dropParked b₂
    refine .inr ⟨.silent none, _, _, ?_, ?_, h.of_still (by simp) (by simp) still₁ still₂⟩
    · exact congrArg (fun x => some (x, _)) (still₁.answer none)
    · exact congrArg (fun x => some (x, _)) (still₂.answer none)

/-- Two benches that are alike give the same answers throughout every history. -/
theorem history? (h : Alike b₁ b₂) (client : Client σ) (acts : List Act) :
    (b₁.history? client acts).map Prod.fst = (b₂.history? client acts).map Prod.fst := by
  induction acts generalizing b₁ b₂ with
  | nil => rfl
  | cons a rest ih =>
    rcases h.act? client a with ⟨h₁, h₂⟩ | ⟨answer, c₁, c₂, h₁, h₂, alike⟩
    · simp [Bench.history?, h₁, h₂]
    · have tail := congrArg (Option.map (answer :: ·)) (ih alike)
      simpa [Bench.history?, h₁, h₂, Option.map_map, Function.comp_def] using tail

end Alike

end WebCall.Call.Bench
