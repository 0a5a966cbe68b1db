import WebCall.Config.Settings
import WebCall.Proofs.Toml.Entries

/-!
# Drafts of configurations

What a configuration file is to say, and the texts that say it: a base and the settings of a section
may be left out, the lines of the base and of the section come in any order, and empty lines,
comments and keys without meaning may stand in between.

## Main definitions

* `Setting`: the settings of a section.
* `Config.Draft`: what a file is to say.
* `Config.Draft.Written`: the texts of a draft, of which there always is one.
* `Config.Draft.Fits`: the drafts with numbers in range.
-/
namespace WebCall

open Toml (Scalar Line TableLines LinesText entries)

/-- A setting that a section may give. -/
inductive Setting
  | timeout
  | connectTimeout
  | maxAttempts
  | busyDelay
  | maxRetryAfter
  | schedulerThreads
  deriving DecidableEq, Repr

/-- The key of a setting. -/
def Setting.key : Setting → String
  | timeout => "timeout_secs"
  | connectTimeout => "connect_timeout_secs"
  | maxAttempts => "max_attempts"
  | busyDelay => "busy_delay_secs"
  | maxRetryAfter => "max_retry_after_secs"
  | schedulerThreads => "scheduler_threads"

/-- The number of a setting; there may be no limit for what servers ask for. -/
def DispatchSettings.number? (s : DispatchSettings) : Setting → Option Int
  | .timeout => some s.timeoutSecs
  | .connectTimeout => some s.connectTimeoutSecs
  | .maxAttempts => some s.maxAttempts.toNat
  | .busyDelay => some s.busyDelaySecs
  | .maxRetryAfter => s.maxRetryAfterSecs.map Int.ofNat
  | .schedulerThreads => some s.schedulerThreads

namespace Config

/-- What a file is to say: perhaps a base, and perhaps a section with numbers for some settings. -/
structure Draft where
  baseUrl : Option String
  given : Option (Setting → Option Int)

/-! ## Texts of drafts -/

/-- A value that a key without meaning may have: a text, or an integer of 64 bits. -/
def IsOther (value : Scalar) : Prop :=
  ∀ n, value = .whole n → -Int.pow 2 63 ≤ n ∧ n < Int.pow 2 63

/-- Lines that give the base and keys without meaning. -/
structure TopLines (baseUrl : Option String) (lines : List Line) : Prop where
  table : TableLines lines
  base : (entries lines).lookup "base_url" = baseUrl.map .text
  free : (entries lines).lookup "dispatch" = none
  other : ∀ e ∈ entries lines, e.1 ≠ "base_url" → IsOther e.2

/-- Lines that give settings and keys without meaning. -/
structure SectionLines (given : Setting → Option Int) (lines : List Line) : Prop where
  table : TableLines lines
  settings : ∀ s : Setting, (entries lines).lookup s.key = (given s).map .whole
  other : ∀ e ∈ entries lines, (∀ s : Setting, e.1 ≠ s.key) → IsOther e.2

/-- The lines of a draft, in any order, with empty lines and keys without meaning in between. -/
inductive Draft.Lines : Draft → List Line → Prop
  | flat {baseUrl : Option String} {lines : List Line} (top : TopLines baseUrl lines) :
      Lines ⟨baseUrl, none⟩ lines
  | sectioned {baseUrl : Option String} {given : Setting → Option Int} {lines lines' : List Line}
      (top : TopLines baseUrl lines) (settings : SectionLines given lines') :
      Lines ⟨baseUrl, some given⟩ (lines ++ .header "dispatch" :: lines')

/-- A text says what a draft is to say. -/
def Draft.Written (d : Draft) (text : String) : Prop :=
  ∃ lines, d.Lines lines ∧ LinesText lines text.toList

/-- Every number is in the range of its setting. -/
def Fit (given : Setting → Option Int) : Prop :=
  ∀ s n, given s = some n →
    0 ≤ n ∧ n < Int.pow 2 63 ∧ (s = .maxAttempts → n < Int.pow 2 32)

/-- Every number of a draft is in the range of its setting. -/
def Draft.Fits (d : Draft) : Prop := ∀ given, d.given = some given → Fit given

/-- The number that a draft gives for a setting. -/
def Draft.number? (d : Draft) (s : Setting) : Option Int := d.given.bind fun given => given s

/-! ## Every draft can be written -/

theorem Setting.key_injective : ∀ s s' : Setting, s.key = s'.key → s = s' := by
  intro s s'
  cases s <;> cases s' <;> decide

/-- The settings, in their order. -/
def Setting.all : List Setting :=
  [.timeout, .connectTimeout, .maxAttempts, .busyDelay, .maxRetryAfter, .schedulerThreads]

/-- One line for every setting that is given. -/
def settingLines (given : Setting → Option Int) : List Line :=
  (Setting.all.filter fun s => (given s).isSome).map fun s =>
    .pair s.key (.whole ((given s).getD 0))

theorem sectionLines_settingLines (given : Setting → Option Int) :
    SectionLines given (settingLines given) := by
  have pairs : entries (settingLines given) = (Setting.all.filter fun s => (given s).isSome).map
      fun s => (s.key, .whole ((given s).getD 0)) := by
    rw [entries, settingLines, List.filterMap_map, ← List.filterMap_eq_map]
    rfl
  have table : TableLines (settingLines given) := by
    constructor
    · intro line there key
      obtain ⟨s, -, rfl⟩ := List.mem_map.1 there
      exact Line.noConfusion
    · rw [pairs, List.map_map]
      have all : (Setting.all.map Setting.key).Nodup := by decide
      exact all.sublist (List.filter_sublist.map _)
  refine ⟨table, fun s => ?_, fun e there other => ?_⟩
  · cases number : given s with
    | none =>
      refine List.lookup_eq_none_iff.2 fun p there => ?_
      rw [pairs] at there
      obtain ⟨s', listed, rfl⟩ := List.mem_map.1 there
      rw [bne_iff_ne]
      intro same
      obtain rfl := Setting.key_injective _ _ same
      simp [number] at listed
    | some n =>
      have there : (s.key, Scalar.whole n) ∈ entries (settingLines given) := by
        rw [pairs]
        refine List.mem_map.2 ⟨s, List.mem_filter.2 ⟨?_, by simp [number]⟩, by simp [number]⟩
        cases s <;> decide
      exact table.lookup_of_mem there
  · rw [pairs] at there
    obtain ⟨s, -, rfl⟩ := List.mem_map.1 there
    exact absurd rfl (other s)

/-- The line of a base. -/
def baseLines (baseUrl : Option String) : List Line :=
  baseUrl.toList.map fun text => .pair "base_url" (.text text)

theorem topLines_baseLines (baseUrl : Option String) : TopLines baseUrl (baseLines baseUrl) := by
  cases baseUrl with
  | none => exact ⟨⟨by simp [baseLines], by simp [baseLines, entries]⟩, rfl, rfl,
      fun e there => nomatch there⟩
  | some text =>
    refine ⟨⟨by simp [baseLines], by simp [baseLines, entries]⟩, rfl, rfl, fun e there => ?_⟩
    obtain rfl := List.mem_singleton.1 there
    exact fun other => absurd rfl other

/-- There is a text for every base and all numbers of any settings. -/
theorem Draft.exists_written (d : Draft) : ∃ text, d.Written text := by
  obtain ⟨baseUrl, given⟩ := d
  obtain ⟨lines, shape⟩ : ∃ lines, Lines ⟨baseUrl, given⟩ lines := by
    cases given with
    | none => exact ⟨_, .flat (topLines_baseLines baseUrl)⟩
    | some given =>
      exact ⟨_, .sectioned (topLines_baseLines baseUrl) (sectionLines_settingLines given)⟩
  obtain ⟨cs, text⟩ := Toml.exists_linesText lines
  exact ⟨.ofList cs, lines, shape, by rwa [String.toList_ofList]⟩

end Config

end WebCall
