import WebCall.Proofs.Config.Draft
import WebCall.Proofs.Config.Load
import WebCall.Proofs.Text.Utf8

/-!
# Written configurations

A configuration file that was written from a draft is loaded with exactly the base and the numbers
of the draft. What is missing has its default. The file is refused just in case a number is out of
the range of its setting.

## Main definitions

* `Config.ofTable?_eq_some_iff`: the settings of a table.
* `Config.ofText?_written`: the configuration of a text.
* `Config.load_written`: what a written file is loaded as.
-/
namespace WebCall

open Toml (Scalar Line entries)

namespace Config

/-! ## Settings of a table -/

section Settings

variable {t : Toml.Table} {key : String} {n? : Option Int}

theorem readOr_count {dflt : Nat} (h : t.get? key = n?.map .integer) :
    t.readOr key DispatchSettings.count? dflt =
      if ∀ n ∈ n?, 0 ≤ n then some (n?.elim dflt Int.toNat) else none := by
  cases n? with
  | none => simp [Toml.Table.readOr, h]
  | some n => simp [Toml.Table.readOr, h, DispatchSettings.count?]

theorem readOr_limit (h : t.get? key = n?.map .integer) :
    t.readOr key (fun item => (DispatchSettings.count? item).map some) none =
      if ∀ n ∈ n?, 0 ≤ n then some (n?.map Int.toNat) else none := by
  cases n? with
  | none => simp [Toml.Table.readOr, h]
  | some n =>
    simp only [Toml.Table.readOr, h, DispatchSettings.count?, Option.map_some]
    split <;> simp_all

theorem readOr_word {dflt : UInt32} (h : t.get? key = n?.map .integer) :
    t.readOr key DispatchSettings.word? dflt =
      if ∀ n ∈ n?, 0 ≤ n ∧ n < Int.pow 2 32 then some (n?.elim dflt fun n => n.toNat.toUInt32)
      else none := by
  cases n? with
  | none => simp [Toml.Table.readOr, h]
  | some n =>
    have limit : Int.pow 2 32 = (Nat.pow 2 32 : Nat) := rfl
    simp only [Toml.Table.readOr, h, DispatchSettings.word?, DispatchSettings.count?,
      Option.map_some]
    rw [limit]
    split
    · next positive =>
      have same : n.toNat < Nat.pow 2 32 ↔ n < (Nat.pow 2 32 : Nat) := by omega
      simp [positive, same]
    · next negative => simp [negative]

variable {x : DispatchSettings} {given : Setting → Option Int}

/-- Settings are read from a table one by one. -/
theorem ofTable?_eq_some_iff : DispatchSettings.ofTable? t = some x ↔
    t.readOr Setting.timeout.key DispatchSettings.count? 30 = some x.timeoutSecs ∧
    t.readOr Setting.connectTimeout.key DispatchSettings.count? 15 = some x.connectTimeoutSecs ∧
    t.readOr Setting.maxAttempts.key DispatchSettings.word? 5 = some x.maxAttempts ∧
    t.readOr Setting.busyDelay.key DispatchSettings.count? 5 = some x.busyDelaySecs ∧
    t.readOr Setting.maxRetryAfter.key (fun item => (DispatchSettings.count? item).map some) none =
      some x.maxRetryAfterSecs ∧
    t.readOr Setting.schedulerThreads.key DispatchSettings.count? 2 = some x.schedulerThreads := by
  simp only [DispatchSettings.ofTable?, bind, Option.bind_eq_some_iff]
  constructor
  · rintro ⟨_, timeout, _, connect, _, attempts, _, busy, _, limit, _, threads, ⟨⟩⟩
    exact ⟨timeout, connect, attempts, busy, limit, threads⟩
  · rintro ⟨timeout, connect, attempts, busy, limit, threads⟩
    exact ⟨_, timeout, _, connect, _, attempts, _, busy, _, limit, _, threads, rfl⟩

/-- The settings with the given numbers, and defaults for the others. -/
def settingsOf (given : Setting → Option Int) : DispatchSettings where
  timeoutSecs := (given .timeout).elim 30 Int.toNat
  connectTimeoutSecs := (given .connectTimeout).elim 15 Int.toNat
  maxAttempts := (given .maxAttempts).elim 5 fun n => n.toNat.toUInt32
  busyDelaySecs := (given .busyDelay).elim 5 Int.toNat
  maxRetryAfterSecs := (given .maxRetryAfter).map Int.toNat
  schedulerThreads := (given .schedulerThreads).elim 2 Int.toNat

/-- The settings of a table that has given numbers. -/
theorem ofTable?_of_fit (h : ∀ s : Setting, t.get? s.key = (given s).map .integer)
    (fit : Fit given) : DispatchSettings.ofTable? t = some (settingsOf given) := by
  have positive (s : Setting) : ∀ n ∈ given s, 0 ≤ n := fun n hn => (fit s n hn).1
  have word : ∀ n ∈ given .maxAttempts, 0 ≤ n ∧ n < Int.pow 2 32 := fun n hn =>
    ⟨(fit _ n hn).1, (fit _ n hn).2.2 rfl⟩
  rw [ofTable?_eq_some_iff, readOr_count (h .timeout), readOr_count (h .connectTimeout),
    readOr_word (h .maxAttempts), readOr_count (h .busyDelay), readOr_limit (h .maxRetryAfter),
    readOr_count (h .schedulerThreads)]
  exact ⟨if_pos (positive _), if_pos (positive _), if_pos word, if_pos (positive _),
    if_pos (positive _), if_pos (positive _)⟩

/-- Where the settings of a table are read, no number is below zero or too great. -/
theorem le_of_ofTable? (h : ∀ s : Setting, t.get? s.key = (given s).map .integer)
    (read : DispatchSettings.ofTable? t = some x) (s : Setting) :
    ∀ n ∈ given s, 0 ≤ n ∧ (s = .maxAttempts → n < Int.pow 2 32) := by
  rw [ofTable?_eq_some_iff, readOr_count (h .timeout), readOr_count (h .connectTimeout),
    readOr_word (h .maxAttempts), readOr_count (h .busyDelay), readOr_limit (h .maxRetryAfter),
    readOr_count (h .schedulerThreads)] at read
  simp only [Option.ite_none_right_eq_some] at read
  obtain ⟨timeout, connect, attempts, busy, limit, threads⟩ := read
  intro n hn
  cases s with
  | timeout => exact ⟨timeout.1 n hn, fun other => nomatch other⟩
  | connectTimeout => exact ⟨connect.1 n hn, fun other => nomatch other⟩
  | maxAttempts => exact ⟨(attempts.1 n hn).1, fun _ => (attempts.1 n hn).2⟩
  | busyDelay => exact ⟨busy.1 n hn, fun other => nomatch other⟩
  | maxRetryAfter => exact ⟨limit.1 n hn, fun other => nomatch other⟩
  | schedulerThreads => exact ⟨threads.1 n hn, fun other => nomatch other⟩

theorem elim_toNat {dflt : Nat} (h : ∀ n ∈ n?, 0 ≤ n) :
    some ((n?.elim dflt Int.toNat : Nat) : Int) = n?.or (some (dflt : Int)) := by
  cases n? with
  | none => rfl
  | some n => exact congrArg some (Int.toNat_of_nonneg (h n rfl))

theorem elim_toUInt32 {dflt : UInt32} (h : ∀ n ∈ n?, 0 ≤ n ∧ n < Int.pow 2 32) :
    some (((n?.elim dflt fun n => n.toNat.toUInt32).toNat : Nat) : Int) =
      n?.or (some (dflt.toNat : Int)) := by
  cases n? with
  | none => rfl
  | some n =>
    obtain ⟨positive, below⟩ := h n rfl
    have limit : Int.pow 2 32 = (2 ^ 32 : Nat) := rfl
    have word : n.toNat.toUInt32.toNat = n.toNat := by
      rw [Nat.toUInt32, UInt32.toNat_ofNat', Nat.mod_eq_of_lt (by omega)]
    refine congrArg some ?_
    rw [Option.elim_some, word]
    exact Int.toNat_of_nonneg positive

/-- The settings have the given numbers. -/
theorem number?_settingsOf (fit : Fit given) (s : Setting) :
    (settingsOf given).number? s = (given s).or (DispatchSettings.number? {} s) := by
  have positive (s : Setting) : ∀ n ∈ given s, 0 ≤ n := fun n hn => (fit s n hn).1
  cases s with
  | timeout => exact elim_toNat (positive _)
  | connectTimeout => exact elim_toNat (positive _)
  | maxAttempts =>
    exact elim_toUInt32 fun n hn => ⟨positive _ n hn, (fit .maxAttempts n hn).2.2 rfl⟩
  | busyDelay => exact elim_toNat (positive _)
  | maxRetryAfter =>
    cases limit : given .maxRetryAfter with
    | none => simp [settingsOf, DispatchSettings.number?, limit]
    | some n =>
      have whole := Int.toNat_of_nonneg (positive _ n limit)
      simp [settingsOf, DispatchSettings.number?, limit, whole]
  | schedulerThreads => exact elim_toNat (positive _)

end Settings

/-! ## Files -/

/-- The range of the integers of the format. -/
theorem integer?_eq_some {n : Int} (low : -Int.pow 2 63 ≤ n) (high : n < Int.pow 2 63) :
    Toml.integer? n = some (.integer n) :=
  if_pos ⟨low, high⟩

theorem IsOther.isSome {value : Scalar} (h : IsOther value) : value.item?.isSome = true := by
  cases value with
  | text s => rfl
  | whole n =>
    rw [Scalar.item?, integer?_eq_some (h n rfl).1 (h n rfl).2]
    rfl

section Files

variable {baseUrl : Option String} {given : Setting → Option Int} {lines : List Line}
  {files : FileTree} {path text : String} {d : Draft}

/-- The table of the first lines: the base, and nothing else that is known. -/
theorem TopLines.exists_table (h : TopLines baseUrl lines) :
    ∃ t, Toml.Table.ofEntries? (entries lines) = some t ∧
      t.get? "base_url" = baseUrl.map .string ∧ t.get? "dispatch" = none := by
  have values : ∀ e ∈ entries lines, e.2.item?.isSome = true := by
    intro e he
    by_cases base : e.1 = "base_url"
    · have value := h.table.lookup_of_mem he
      rw [base, h.base, Option.map_eq_some_iff] at value
      obtain ⟨text, -, eq⟩ := value
      rw [← eq]
      rfl
    · exact (h.other e he base).isSome
  obtain ⟨t, read⟩ := Toml.Table.exists_ofEntries? values
  refine ⟨t, read, ?_, ?_⟩
  · rw [Toml.Table.get?_of_ofEntries? read, h.base]
    cases baseUrl <;> rfl
  · rw [Toml.Table.get?_of_ofEntries? read, h.free]
    rfl

/-- The table of a section with numbers that are all in range. -/
theorem SectionLines.exists_table (h : SectionLines given lines) (fit : Fit given) :
    ∃ t, Toml.Table.ofEntries? (entries lines) = some t := by
  refine Toml.Table.exists_ofEntries? fun e he => ?_
  by_cases known : ∃ s : Setting, e.1 = s.key
  · obtain ⟨s, key⟩ := known
    have value := h.table.lookup_of_mem he
    rw [key, h.settings, Option.map_eq_some_iff] at value
    obtain ⟨n, number, eq⟩ := value
    obtain ⟨positive, below, -⟩ := fit s n number
    have low : -Int.pow 2 63 ≤ 0 := by decide
    rw [← eq, Scalar.item?, integer?_eq_some (Int.le_trans low positive) below]
    rfl
  · exact (h.other e he fun s key => known ⟨s, key⟩).isSome

/-- The settings in the table of a section, all of which 64 bits hold. -/
theorem SectionLines.get?_key (h : SectionLines given lines) {t : Toml.Table}
    (read : Toml.Table.ofEntries? (entries lines) = some t) (s : Setting) :
    t.get? s.key = (given s).map .integer ∧ ∀ n ∈ given s, n < Int.pow 2 63 := by
  have value := Toml.Table.get?_of_ofEntries? read s.key
  rw [h.settings] at value
  cases number : given s with
  | none => simpa [number] using value
  | some n =>
    have found := h.settings s
    rw [number] at found value
    obtain ⟨front, back, split, -⟩ := List.lookup_eq_some_iff.1 found
    have there : (s.key, Scalar.whole n) ∈ entries lines := by simp [split]
    obtain ⟨item, held⟩ :=
      Option.isSome_iff_exists.1 (Toml.Table.isSome_of_ofEntries? read _ there)
    obtain ⟨⟨low, high⟩, -⟩ := Option.ite_none_right_eq_some.1 held
    refine ⟨value.trans (integer?_eq_some low high), fun m hm => ?_⟩
    cases hm
    exact high

/-- A file that holds a written draft is read as the configuration of its text. -/
theorem load_of_read (read : files.read path = .ok (Utf8.encode text)) :
    (load files path).result = match ofText? text with
      | some config => .ok config
      | none => .error (.content path) := by
  have there := FileTree.has_of_read read
  simp only [load, there, if_true, readFile, read, Utf8.decode?_encode]
  cases ofText? text <;> rfl

/-- The configuration of a draft whose numbers are all in range. -/
def Draft.config (d : Draft) : Config where
  baseUrl := d.baseUrl
  dispatch := d.given.map settingsOf

/-- A configuration is read from a table with a base. -/
theorem ofTable?_of_base {t : Toml.Table} (base : t.get? "base_url" = baseUrl.map .string) :
    ofTable? t = (t.readOr "dispatch" (fun item => (DispatchSettings.ofItem? item).map some)
      none).map fun dispatch => { baseUrl, dispatch } := by
  have read : t.readOr "base_url" (fun item => (text? item).map some) none = some baseUrl := by
    rw [Toml.Table.readOr, base]
    cases baseUrl <;> rfl
  rw [ofTable?, read]
  cases t.readOr "dispatch" (fun item => (DispatchSettings.ofItem? item).map some) none <;> rfl

/-- A configuration is read from a table with a base and a section. -/
theorem ofTable?_append {t sub : Toml.Table} (base : t.get? "base_url" = baseUrl.map .string)
    (free : t.get? "dispatch" = none) :
    ofTable? (t ++ [("dispatch", .table .header sub)]) =
      (DispatchSettings.ofTable? sub).map fun s => { baseUrl, dispatch := some s } := by
  have base' : Toml.Table.get? (t ++ [("dispatch", .table .header sub)]) "base_url" =
      baseUrl.map .string := by
    rw [Toml.Table.get?_append, base]
    cases baseUrl <;> rfl
  have found : Toml.Table.get? (t ++ [("dispatch", .table .header sub)]) "dispatch" =
      some (.table .header sub) := by
    rw [Toml.Table.get?_append, free]
    rfl
  rw [ofTable?_of_base base', Toml.Table.readOr, found]
  simp [DispatchSettings.ofItem?, Function.comp_def]

/-- The settings of a section are read if they are in range, and not at all otherwise. -/
theorem SectionLines.ofTable? (h : SectionLines given lines) :
    (Fit given → (Toml.Table.ofEntries? (entries lines)).bind DispatchSettings.ofTable? =
      some (settingsOf given)) ∧
    (¬ Fit given →
      (Toml.Table.ofEntries? (entries lines)).bind DispatchSettings.ofTable? = none) := by
  constructor
  · intro fit
    obtain ⟨t, read⟩ := h.exists_table fit
    rw [read, Option.bind_some, ofTable?_of_fit (fun s => (h.get?_key read s).1) fit]
  · intro unfit
    by_contra some_
    obtain ⟨x, found⟩ := Option.ne_none_iff_exists'.1 some_
    obtain ⟨t, read, found⟩ := Option.bind_eq_some_iff.1 found
    refine unfit fun s n number => ?_
    obtain ⟨item, high⟩ := h.get?_key read s
    obtain ⟨positive, word⟩ := le_of_ofTable? (fun s => (h.get?_key read s).1) found s n number
    exact ⟨positive, high n number, word⟩

/-- A written draft is read as its configuration if its numbers are in range, and not at all
otherwise. -/
theorem ofText?_written (written : d.Written text) :
    (d.Fits → ofText? text = some d.config) ∧ (¬ d.Fits → ofText? text = none) := by
  obtain ⟨lines, shape, read⟩ := written
  cases shape with
  | @flat baseUrl lines top =>
    obtain ⟨t, table, base, free⟩ := top.exists_table
    have config : ofText? text = some ⟨baseUrl, none⟩ := by
      rw [ofText?, Toml.Document.parse?_flat top.table read, table, Option.bind_some,
        ofTable?_of_base base, Toml.Table.readOr, free]
      rfl
    exact ⟨fun _ => config, fun unfit => absurd (fun _ given => nomatch given) unfit⟩
  | @sectioned baseUrl given lines lines' top settings =>
    obtain ⟨t, table, base, free⟩ := top.exists_table
    have config : ofText? text = ((Toml.Table.ofEntries? (entries lines')).bind
        DispatchSettings.ofTable?).map fun s => ⟨baseUrl, some s⟩ := by
      rw [ofText?, Toml.Document.parse?_section top.table settings.table top.free read, table,
        Option.bind_some]
      cases Toml.Table.ofEntries? (entries lines') with
      | none => rfl
      | some sub => exact ofTable?_append base free
    obtain ⟨reads, refuses⟩ := settings.ofTable?
    constructor
    · intro fits
      rw [config, reads (fits given rfl)]
      rfl
    · intro unfit
      rw [config, refuses fun fit => unfit ?_]
      · rfl
      · rintro given' ⟨⟩
        exact fit

/-- Settings in force have the numbers of the draft. -/
theorem number?_effective (fits : d.Fits) (s : Setting) :
    d.config.effective.number? s = (d.number? s).or (DispatchSettings.number? {} s) := by
  obtain ⟨baseUrl, given⟩ := d
  cases given with
  | none => rfl
  | some given => exact number?_settingsOf (fits given rfl) s

/-- The policy of settings has their numbers, but for an attempt that there is in any case. -/
theorem policy_number? (x : DispatchSettings) :
    some (x.policy.maxAttempts.toNat : Int) = (x.number? .maxAttempts).map (max 1) ∧
    some x.policy.timeout = (x.number? .timeout).map (fun n => .ofSecs n.toNat) ∧
    some x.policy.busyDelay = (x.number? .busyDelay).map (fun n => .ofSecs n.toNat) ∧
    x.policy.maxRetryAfter = (x.number? .maxRetryAfter).map fun n => .ofSecs n.toNat := by
  refine ⟨congrArg some ?_, rfl, rfl, ?_⟩
  · rw [DispatchSettings.policy]
    split
    · next zero =>
      rw [zero]
      rfl
    · next positive =>
      have above : x.maxAttempts.toNat ≠ 0 := fun zero => positive (UInt32.toNat_inj.1 zero)
      have one : (1 : Int) ≤ x.maxAttempts.toNat := by omega
      exact (Int.max_eq_right one).symm
  · simp [DispatchSettings.policy, DispatchSettings.number?, Function.comp_def]

/-- A configuration file that was written is loaded as what it says just in case every number is in
the range of its setting. -/
theorem load_written (written : d.Written text) (read : files.read path = .ok (Utf8.encode text)) :
    let result := (load files path).result
    (result.isOk = true ↔ d.Fits) ∧
    (∀ config, result = .ok config →
      config.baseUrl = d.baseUrl ∧ config.dispatch.isSome = d.given.isSome ∧
      -- A number is the one that was written, or the default.
      (∀ s, config.effective.number? s = (d.number? s).or (DispatchSettings.number? {} s)) ∧
      -- The policy has these numbers, and one attempt at least.
      let number s := (d.number? s).or (DispatchSettings.number? {} s)
      some (config.effective.policy.maxAttempts.toNat : Int) = (number .maxAttempts).map (max 1) ∧
      some config.effective.policy.timeout = (number .timeout).map (fun n => .ofSecs n.toNat) ∧
      some config.effective.policy.busyDelay = (number .busyDelay).map (fun n => .ofSecs n.toNat) ∧
      config.effective.policy.maxRetryAfter =
        (number .maxRetryAfter).map fun n => .ofSecs n.toNat) ∧
    (¬ d.Fits → result = .error (.content path) ∧
      (ConfigError.content path).chain.head? = some s!"parse config: {path}") := by
  intro result
  have loaded : result = _ := load_of_read read
  obtain ⟨reads, refuses⟩ := ofText?_written written
  have ok_of_fits (fits : d.Fits) : result = .ok d.config := by rw [loaded, reads fits]
  have error_of_not (unfit : ¬ d.Fits) : result = .error (.content path) := by
    rw [loaded, refuses unfit]
  have fits_of_ok (ok : result.isOk = true) : d.Fits := by
    by_contra unfit
    rw [error_of_not unfit] at ok
    cases ok
  refine ⟨⟨fits_of_ok, fun fits => by rw [ok_of_fits fits]; rfl⟩, fun config ok => ?_,
    fun unfit => ⟨error_of_not unfit, rfl⟩⟩
  have fits := fits_of_ok (by rw [ok]; rfl)
  obtain rfl := Except.ok.inj ((ok_of_fits fits).symm.trans ok)
  have numbers := number?_effective fits
  have policy := policy_number? d.config.effective
  simp only [numbers] at policy
  exact ⟨rfl, Option.isSome_map, numbers, policy⟩

/-! ## A file -/

/-- A draft with a base and two settings. -/
def sample : Draft where
  baseUrl := some "a\"b"
  given := some fun
    | .maxAttempts => some 0
    | .timeout => some 40
    | _ => none

/-- A text of the draft, with a comment and a key without meaning. -/
def sampleText : String :=
  "base_url = \"a\\\"b\" # base\n\n[dispatch]\nmax_attempts = 0\n\"x y\" = -7\ntimeout_secs = 40"

/-- The lines of the section. -/
def sampleLines : List Line :=
  [.pair "max_attempts" (.whole 0), .pair "x y" (.whole (-7)), .pair "timeout_secs" (.whole 40)]

open Toml in
theorem linesText_sampleText :
    LinesText (.pair "base_url" (.text "a\"b") :: .empty :: .header "dispatch" :: sampleLines)
      sampleText.toList := by
  have none_ : Blanks [] := fun c hc => nomatch hc
  have one : Blanks [' '] := by simp [Blanks]
  have key (key : String) (nonempty : key.toList ≠ [])
      (bare : key.toList.all isBare = true) : KeyText key key.toList := by
    have spelled := KeyText.bare nonempty (List.all_eq_true.1 bare)
    rwa [String.ofList_toList] at spelled
  have plain (c : Char) (h : c ≠ '"' ∧ c ≠ '\\' ∧ isPlain c = true) : CharText c [c] :=
    .plain h.1 h.2.1 h.2.2
  have base : ScalarText (.text "a\"b") "\"a\\\"b\"".toList :=
    .text (.cons (plain 'a' (by decide)) (.cons (.letter (by decide))
      (.cons (plain 'b' (by decide)) .nil)))
  have comment : TailText (" " ++ "# base").toList := .comment one (List.all_eq_true.1 (by decide))
  have other : KeyText "x y" "\"x y\"".toList :=
    .quoted (.cons (plain 'x' (by decide)) (.cons (plain ' ' (by decide))
      (.cons (plain 'y' (by decide)) .nil)))
  have number (n : Int) (sign : List Char) (signed : sign ∈ signs n) :
      ScalarText (.whole n) (sign ++ Nat.toDigits 10 n.natAbs) := .whole signed
  have text := LinesText.cons
    (.pair none_ (key "base_url" (by decide) (by decide)) one one base comment)
    List.mem_cons_self <| .cons (.empty (.blanks none_)) List.mem_cons_self <| .cons
    (.header none_ none_ (key "dispatch" (by decide) (by decide)) none_ (.blanks none_))
    List.mem_cons_self <| .cons
    (.pair none_ (key "max_attempts" (by decide) (by decide)) one one
      (number 0 [] (by decide)) (.blanks none_))
    List.mem_cons_self <| .cons
    (.pair none_ other one one (number (-7) ['-'] (by decide)) (.blanks none_))
    List.mem_cons_self <| .last
    (.pair none_ (key "timeout_secs" (by decide) (by decide)) one one
      (number 40 [] (by decide)) (.blanks none_))
  exact text

theorem written_sample : sample.Written sampleText := by
  have top : TopLines sample.baseUrl [.pair "base_url" (.text "a\"b"), .empty] := by
    refine ⟨⟨by simp, by decide⟩, rfl, rfl, fun e there other => ?_⟩
    exact absurd (congrArg Prod.fst (List.mem_singleton.1 there)) other
  have settings : SectionLines (fun
      | .maxAttempts => some 0
      | .timeout => some 40
      | _ => none) sampleLines := by
    refine ⟨⟨by simp [sampleLines], by decide⟩, fun s => by cases s <;> rfl,
      fun e there other => ?_⟩
    simp only [sampleLines, entries, List.filterMap_cons, List.filterMap_nil, List.mem_cons,
      List.not_mem_nil, or_false] at there
    rcases there with rfl | rfl | rfl
    · exact absurd rfl (other .maxAttempts)
    · rintro n ⟨⟩
      decide
    · exact absurd rfl (other .timeout)
  exact ⟨_, .sectioned top settings, linesText_sampleText⟩

/-- No attempt at all is written, and there is one. -/
theorem load_written_sample :
    let files : FileTree := ⟨[(["config.toml"], .file (Utf8.encode sampleText))]⟩
    sample.Written sampleText ∧
    files.read "config.toml" = .ok (Utf8.encode sampleText) ∧
    ∃ config, (load files "config.toml").result = .ok config ∧
      config.baseUrl = some "a\"b" ∧ config.dispatch.isSome = true ∧
      config.effective.number? .maxAttempts = some 0 ∧
      config.effective.number? .busyDelay = some 5 ∧
      config.effective.policy.maxAttempts.toNat = 1 ∧
      config.effective.policy.timeout = .ofSecs 40 := by
  intro files
  have read : files.read "config.toml" = .ok (Utf8.encode sampleText) := by decide +kernel
  obtain ⟨succeeds, loads, -⟩ := load_written written_sample read
  have fits : sample.Fits := by
    rintro given ⟨⟩ s n number
    cases s <;> cases number <;> decide
  have ok := succeeds.2 fits
  cases loaded : (load files "config.toml").result with
  | error e =>
    rw [loaded] at ok
    cases ok
  | ok config =>
    obtain ⟨base, dispatch, numbers, attempts, timeout, -⟩ := loads config loaded
    refine ⟨written_sample, read, config, rfl, base, dispatch, numbers _, numbers _, ?_, ?_⟩
    · exact Int.ofNat_inj.1 (Option.some.inj attempts)
    · exact Option.some.inj timeout

end Files

end Config

end WebCall
