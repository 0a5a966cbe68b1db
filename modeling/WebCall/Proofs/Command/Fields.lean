import Mathlib.Data.List.Forall2
import WebCall.Proofs.Command.Request
import WebCall.Proofs.Text.Pieces

/-!
# Fields of the requests of the command

The command sends one request, as often as it takes: the method, the URL and the data as they were
given, and the last of the header texts of each name, in the order of these. The credential comes
after them and takes the place of any that a header text gives. A text that is no field stops the
command before it builds anything, whatever the other texts are.

## Main definitions

* `HeaderText.Malformed`: the texts that are no fields.
* `HeaderText.Spells`: the field that a text spells.
* `CallArguments.request_of_sent_run`: what the command sends.
-/
namespace WebCall.Command

open Text (isBlank trimBoth)

/-! ## Header texts -/

namespace HeaderText

/-- There is no colon, or nothing but blanks in front of the first one. -/
def Malformed (raw : String) : Prop :=
  ':' ∉ raw.toList ∨ ∃ name value, raw.toList = name ++ ':' :: value ∧ ':' ∉ name ∧
    ∀ c ∈ name, isBlank c = true

/-- The name is what stands in front of the first colon and the value is what follows it, both
without outer blanks. -/
def Spells (raw : String) (f : String × String) : Prop :=
  ∃ name value, raw.toList = name ++ ':' :: value ∧ ':' ∉ name ∧
    f = (.ofList (trimBoth name), .ofList (trimBoth value))

/-- A text spells one field at most: its first colon is at one place. -/
theorem rightUnique_spells : Relator.RightUnique Spells := by
  rintro raw _ _ ⟨name, value, parts, first, rfl⟩ ⟨name', value', parts', first', rfl⟩
  have cut := Text.splitFirst?_eq_some_iff.2 ⟨parts, first⟩
  rw [Text.splitFirst?_eq_some_iff.2 ⟨parts', first'⟩] at cut
  cases cut
  rfl

/-- A text is malformed, or it is read as the field that it spells. -/
theorem field_cases (raw : String) :
    (Malformed raw ∧ ∃ cause, field raw = .error cause) ∨
      (¬ Malformed raw ∧ ∃ f, field raw = .ok f ∧ Spells raw f) := by
  by_cases colon : ':' ∈ raw.toList
  · obtain ⟨name, value, parts, first⟩ := List.eq_append_cons_of_mem colon
    have read := field_of_parts parts first
    by_cases blank : name.all isBlank = true
    · rw [if_pos blank] at read
      exact .inl ⟨.inr ⟨name, value, parts, first, List.all_eq_true.1 blank⟩, _, read⟩
    · rw [if_neg blank] at read
      refine .inr ⟨?_, _, read, name, value, parts, first, rfl⟩
      rintro (none_ | ⟨name', value', parts', first', blank'⟩)
      · exact none_ colon
      · have refused := field_of_parts parts' first'
        rw [if_pos (List.all_eq_true.2 blank'), read] at refused
        cases refused
  · exact .inl ⟨.inl colon, _, field_of_notMem colon⟩

/-- Several texts are read one by one, and one that is malformed is enough to refuse them all. -/
theorem mapM_field_cases (raws : List String) :
    ((∃ raw ∈ raws, Malformed raw) ∧ ∃ cause, raws.mapM field = .error cause) ∨
      ((∀ raw ∈ raws, ¬ Malformed raw) ∧
        ∃ fields, raws.mapM field = .ok fields ∧ List.Forall₂ Spells raws fields) := by
  induction raws with
  | nil => exact .inr ⟨nofun, [], rfl, .nil⟩
  | cons raw rest ih =>
    rw [List.mapM_cons]
    rcases field_cases raw with ⟨malformed, cause, read⟩ | ⟨formed, f, read, spells⟩
    · exact .inl ⟨⟨raw, List.mem_cons_self, malformed⟩, cause, by rw [read]; rfl⟩
    · rw [read]
      rcases ih with ⟨⟨bad, later, malformed⟩, cause, refused⟩ | ⟨formed', fields, reads, spell⟩
      · exact .inl ⟨⟨bad, List.mem_cons_of_mem _ later, malformed⟩, cause, by rw [refused]; rfl⟩
      · refine .inr ⟨?_, f :: fields, by rw [reads]; rfl, .cons spells spell⟩
        exact List.forall_mem_cons.2 ⟨formed, formed'⟩

end HeaderText

/-! ## Requests -/

/-- The request of a plan has the last field of each name. -/
theorem CallPlan.request_eq (p : CallPlan) :
    p.request = ⟨p.method, p.url, Http.Fields.latest p.fields, p.data.map Utf8.encode⟩ := by
  have folded (fields : Http.Fields) (r : Http.Request) :
      fields.foldl (fun r f => r.setField f.1 f.2) r =
        { r with fields := fields.foldl (fun kept f => kept.set f.1 f.2) r.fields } := by
    induction fields generalizing r with
    | nil => rfl
    | cons f rest ih => rw [List.foldl_cons, ih, List.foldl_cons]; rfl
  rw [request, folded, show (Http.Request.new p.method p.url).fields = [] from rfl,
    Http.Fields.foldl_set_eq_latest]
  cases p.data <;> rfl

/-- What every attempt of a plan sends: the credential comes after the other fields. -/
theorem CallPlan.request_sentAt (p : CallPlan) (policy : Retry.Policy) (j : Nat) :
    ((p.order policy).sentAt j).request = {
      method := p.method
      url := p.url
      fields := (Http.Fields.latest p.fields).without "Authorization" ++
        [("Authorization", p.authorization)]
      body := p.data.map Utf8.encode } := by
  have credited : ((p.order policy).sentAt j).request =
      p.request.setField "Authorization" p.authorization := rfl
  rw [credited, p.request_eq]
  rfl

theorem CallPlan.distinct_sentAt (p : CallPlan) (policy : Retry.Policy) (j : Nat) :
    ((p.order policy).sentAt j).request.fields.Distinct := by
  rw [p.request_sentAt]
  exact (Http.Fields.distinct_latest p.fields).set _ _

namespace CallArguments

variable {σ : Type}

/-- What the command sends. If the target has no URL or a header text is malformed, the command
fails before it builds a request. Otherwise it sends one at least, and all that it sends are one
request: the method and the URL, the data if there are any, and of the fields that the header texts
spell the last one of each name, in the order of these, but for the credential. That is the last
field, whatever the texts say. -/
theorem request_of_sent_run (a : CallArguments) (config : Config) (client : Call.Client σ)
    (start : σ) :
    let r := a.run config client start
    let refused := (∃ cause, Target.resolve config.baseUrl a.target = .error cause) ∨
      ∃ raw ∈ a.headers, HeaderText.Malformed raw
    (refused → (∃ e, r.result = .error e ∧ e.apiError? = none) ∧ r.sent = [] ∧
      r.events.countP Call.Event.isBuilt = 0) ∧
    (¬ refused → ∃ url fields, Target.resolve config.baseUrl a.target = .ok url ∧
      List.Forall₂ HeaderText.Spells a.headers fields ∧ r.sent ≠ [] ∧
      ∀ q ∈ r.sent, q.request.fields.Distinct ∧ q.request = {
        method := a.method
        url
        fields := (Http.Fields.latest fields).without "Authorization" ++
          [("Authorization", credential a.token)]
        body := a.data.map Utf8.encode }) := by
  intro r refused
  have fails (e : CallError) (hp : a.plan config = .error e) (own : e.apiError? = none) :
      (∃ e, r.result = .error e ∧ e.apiError? = none) ∧ r.sent = [] ∧
        r.events.countP Call.Event.isBuilt = 0 := by
    simp [r, run, hp, CallRun.sent, own]
  cases target : Target.resolve config.baseUrl a.target with
  | error cause =>
    have stopped := fails (.target cause) (by simp only [plan, target]) rfl
    exact ⟨fun _ => stopped, fun sound => absurd (.inl ⟨cause, target⟩) sound⟩
  | ok url =>
    rcases HeaderText.mapM_field_cases a.headers with
      ⟨malformed, cause, headers⟩ | ⟨formed, fields, headers, spells⟩
    · have stopped := fails (.header cause) (by simp only [plan, target, headers]) rfl
      exact ⟨fun _ => stopped, fun sound => absurd (.inr malformed) sound⟩
    · refine ⟨?_, fun _ => ⟨url, fields, rfl, spells, ?_⟩⟩
      · rintro (⟨cause, unresolved⟩ | ⟨raw, given, malformed⟩)
        · simp [target] at unresolved
        · exact absurd malformed (formed raw given)
      obtain ⟨p, eq⟩ : ∃ p : CallPlan, p = ⟨a.method, url, fields, a.data, credential a.token⟩ :=
        ⟨_, rfl⟩
      have hp : a.plan config = .ok p := by simp only [plan, target, headers, eq]
      have solid : Text.isAllBlank p.authorization = false := by
        rw [eq, isAllBlank_credential]
      obtain ⟨n, sent, -⟩ := exists_sent_run client start hp solid
      rw [show r.sent = _ from sent]
      refine ⟨by simp, fun q hq => ?_⟩
      obtain ⟨j, -, rfl⟩ := List.mem_map.1 hq
      refine ⟨p.distinct_sentAt _ _, ?_⟩
      rw [p.request_sentAt, eq]

/-- Two fields of one name in different case, a credential among the header texts, and a server that
is busy at first: both requests have the last spelling and the command's own credential. -/
theorem request_of_sent_run_retried :
    let client : Call.Client Nat := Call.Client.ofReplies fun j =>
      if j = 0 then ⟨.ok ⟨503, [], ""⟩, false, []⟩ else ⟨.ok ⟨200, [], "done"⟩, false, []⟩
    let a : CallArguments := {
      method := .post
      target := "/me"
      data := some "x"
      headers := ["X-Page: 1", "authorization: Basic zzz", "Accept : text/html", "x-page:2"]
      token := " t0 " }
    let r := a.run { baseUrl := some "http://host/v1/" } client 0
    r.sent.length = 2 ∧ ∀ q ∈ r.sent, q.request = {
      method := .post
      url := "http://host/v1/me"
      fields := [("Accept", "text/html"), ("x-page", "2"), ("Authorization", "Bearer t0")]
      body := some [120] } := by
  intro client a r
  have spelled : List.Forall₂ HeaderText.Spells a.headers [("X-Page", "1"),
      ("authorization", "Basic zzz"), ("Accept", "text/html"), ("x-page", "2")] := by
    refine .cons ⟨"X-Page".toList, " 1".toList, ?_⟩ (.cons ⟨"authorization".toList,
      " Basic zzz".toList, ?_⟩ (.cons ⟨"Accept ".toList, " text/html".toList, ?_⟩
      (.cons ⟨"x-page".toList, "2".toList, ?_⟩ .nil))) <;> decide +kernel
  have target : Target.resolve (some "http://host/v1/") a.target = .ok "http://host/v1/me" := by
    decide +kernel
  have sound : ¬ ((∃ cause, Target.resolve (some "http://host/v1/") a.target = .error cause) ∨
      ∃ raw ∈ a.headers, HeaderText.Malformed raw) := by
    rintro (⟨cause, failed⟩ | ⟨raw, given, malformed⟩)
    · rw [target] at failed
      cases failed
    · rcases HeaderText.mapM_field_cases a.headers with ⟨-, cause, refused⟩ | ⟨formed, -⟩
      · have read : (a.headers.mapM HeaderText.field).isOk = true := by decide +kernel
        rw [refused] at read
        cases read
      · exact formed raw given malformed
  obtain ⟨url, fields, resolved, spells, -, requests⟩ :=
    (request_of_sent_run a { baseUrl := some "http://host/v1/" } client 0).2 sound
  obtain rfl : "http://host/v1/me" = url := Except.ok.inj (target.symm.trans resolved)
  obtain rfl := HeaderText.rightUnique_spells.forall₂ spelled spells
  refine ⟨by decide +kernel, fun q hq => (requests q hq).2.trans ?_⟩
  decide +kernel

end CallArguments

end WebCall.Command
