import WebCall.Command.Call
import WebCall.Proofs.Call.Course
import WebCall.Proofs.Command.HeaderTexts

/-!
# Requests of the command

What the command sends for its arguments. The target and the header texts decide whether it sends
anything; the token decides only what the credential is. A call refuses a blank credential, but the
command makes none: the scheme that it puts in front of a bare token is not blank, whatever the
token is. The names of header texts are trimmed before they are compared, so the requests of the
command never have two header lines of one name.
-/
namespace WebCall.Command

open Text (isAllBlank isAllBlank_iff)

/-! ## Credentials -/

/-- A blank token leaves the scheme alone. -/
theorem credential_of_isAllBlank {token : String} (h : isAllBlank token = true) :
    credential token = "Bearer " := by
  have nothing : Text.trim token = "" := by
    rw [Text.trim, List.isEmpty_iff.1 h]
  simp [credential, nothing, bearer]

/-- No token makes a blank credential. -/
theorem isAllBlank_credential (token : String) : isAllBlank (credential token) = false := by
  rw [Bool.eq_false_iff]
  intro blank
  rw [isAllBlank_iff] at blank
  by_cases spaced : (Text.trim token).toList.contains ' ' = true
  · -- What is left after trimming has no blanks at its ends, so it is not blank.
    have own : credential token = Text.trim token := by simp only [credential, spaced, if_true]
    rw [own, Text.toList_trim, ← Text.trimBoth_eq_nil_iff, Text.trimBoth_trimBoth] at blank
    rw [Text.toList_trim, blank] at spaced
    cases spaced
  · have schemed : credential token = bearer ++ Text.trim token := by
      simp only [credential, spaced]
      rfl
    have first := blank 'B' (by simp [schemed, bearer])
    revert first
    decide

/-! ## Plans -/

namespace CallPlan

variable (p : CallPlan)

/-- The steps in which the request of a plan is made. -/
def steps : List Http.Request.Step :=
  p.fields.map (fun f => .field f.1 f.2) ++ (p.data.map fun text => .body (Utf8.encode text)).toList

theorem request_eq_make : p.request = .make p.method p.url p.steps := by
  cases hd : p.data <;> simp [request, Http.Request.make, steps, hd, List.foldl_map,
    Http.Request.step]

theorem exists_mem_fields_of_mem_names {p : CallPlan} {name : String}
    (h : name ∈ Http.Request.names p.steps) : ∃ f ∈ p.fields, f.1 = name := by
  rw [Http.Request.names, steps, List.filterMap_append, List.mem_append] at h
  rcases h with given | body
  · simpa [List.filterMap_map, Function.comp_def, Http.Request.Step.name?] using given
  · cases hd : p.data <;> simp [hd, Http.Request.Step.name?] at body

end CallPlan

/-! ## What is sent -/

namespace CallArguments

variable (a : CallArguments) (config : Config)

/-- The target and the header texts decide whether there is a call to make. -/
theorem plan_cases :
    (∃ plan, a.plan config = .ok plan ∧ plan.authorization = credential a.token ∧
      Target.resolve config.baseUrl a.target = .ok plan.url ∧
      a.headers.mapM HeaderText.field = .ok plan.fields) ∨
    (∃ e, a.plan config = .error e ∧
      ((∃ cause, Target.resolve config.baseUrl a.target = .error cause) ∨
        ∃ cause, a.headers.mapM HeaderText.field = .error cause)) := by
  cases target : Target.resolve config.baseUrl a.target with
  | error cause => exact .inr ⟨.target cause, by simp only [plan, target], .inl ⟨cause, rfl⟩⟩
  | ok url =>
    cases headers : a.headers.mapM HeaderText.field with
    | error cause =>
      exact .inr ⟨.header cause, by simp only [plan, target, headers], .inr ⟨cause, rfl⟩⟩
    | ok fields =>
      refine .inl ⟨⟨a.method, url, fields, a.data, credential a.token⟩, ?_⟩
      simp only [plan, target, headers, and_self]

variable {σ : Type} (client : Call.Client σ) (start : σ) {a config}

theorem sent_run_of_error {e : CallError} (h : a.plan config = .error e) :
    (a.run config client start).sent = [] := by
  simp [run, h, CallRun.sent]

/-- A call that can be made is made: its requests are those of its order, at least one. -/
theorem exists_sent_run {plan : CallPlan} (h : a.plan config = .ok plan)
    (credential : isAllBlank plan.authorization = false) :
    ∃ n, (a.run config client start).sent =
        (List.range (n + 1)).map (plan.order config.effective.policy).sentAt ∧
      (a.run config client start).events.countP Call.Event.isBuilt = n + 1 := by
  let b : Call.Bench σ := { client := start }
  let o := plan.order config.effective.policy
  obtain ⟨n, -, on, off⟩ := o.exists_last client start []
  have finished := Call.Bench.request_of_not_goesOn client b.tokens.create.1
    (b := { b with tokens := b.tokens.create.2 }) (o := o) credential (Tokens.made_create _)
    (Tokens.isCancelled_create _) on off
  have run : (a.run config client start).events =
      (b.requestOwn client o []).2.events := by
    simp only [CallArguments.run, h, b, o]
  refine ⟨n, ?_, ?_⟩
  · rw [CallRun.sent, run]
    exact finished.sent.trans (List.nil_append _)
  · rw [run]
    exact finished.builds.trans (Nat.zero_add _)

/-- The requests of the command. One is built and sent exactly when the target has a URL and every
header text is a field, whatever the token is; each request carries the credential of the token,
which is the bare scheme if the token is blank. -/
theorem sent_run (a : CallArguments) (config : Config) :
    let r := a.run config client start
    (r.sent ≠ [] ↔ (∃ url, Target.resolve config.baseUrl a.target = .ok url) ∧
      ∃ fields, a.headers.mapM HeaderText.field = .ok fields) ∧
    r.events.countP Call.Event.isBuilt = r.sent.length ∧
    (∀ q ∈ r.sent, q.request.field? "Authorization" = some (credential a.token)) ∧
    (isAllBlank a.token = true → credential a.token = "Bearer ") := by
  intro r
  rcases a.plan_cases config with ⟨plan, hp, own, target, headers⟩ | ⟨e, hp, refused⟩
  · have solid : isAllBlank plan.authorization = false := own ▸ isAllBlank_credential a.token
    obtain ⟨n, sent, builds⟩ := exists_sent_run client start hp solid
    refine ⟨?_, ?_, fun q hq => ?_, credential_of_isAllBlank⟩
    · simp [r, sent, target, headers]
    · rw [builds, sent]
      simp
    · rw [show r.sent = _ from sent, List.mem_map] at hq
      obtain ⟨j, -, rfl⟩ := hq
      rw [← own]
      exact Http.Fields.get?_set_of_sameName (by decide)
  · have sent := sent_run_of_error client start hp
    refine ⟨?_, ?_, by simp [r, sent], credential_of_isAllBlank⟩
    · rcases refused with ⟨cause, h⟩ | ⟨cause, h⟩ <;> simp [r, sent, h]
    · rw [show r.sent = _ from sent]
      simp [r, run, hp]

/-- A token of one space: a request is sent all the same, with a scheme and no token. -/
theorem sent_run_of_blank_token :
    let client : Call.Client Nat := Call.Client.ofReplies fun _ => ⟨.ok ⟨200, [], "ok"⟩, false, []⟩
    let a : CallArguments := {
      method := .get, target := "http://host/me", data := none, headers := [], token := " " }
    let r := a.run {} client 0
    isAllBlank a.token = true ∧ r.sent ≠ [] ∧
      ∀ q ∈ r.sent, q.request.field? "Authorization" = some "Bearer " := by
  intro client a r
  have blank : isAllBlank a.token = true := by decide
  obtain ⟨sends, -, carried, bare⟩ := sent_run client 0 a {}
  rw [bare blank] at carried
  refine ⟨blank, sends.2 ⟨⟨"http://host/me", ?_⟩, [], rfl⟩, carried⟩
  decide +kernel

/-! ## Header lines -/

/-- The name of a field that is made of a header text is shown on a line as it is. -/
theorem plain_of_field {raw : String} {f : String × String} (h : HeaderText.field raw = .ok f) :
    Wire.Plain f.1 := by
  have shown := Http.shown_of_fieldOfLine? (HeaderText.field_eq_ok_iff.1 h).1
  exact ⟨shown.name, shown.noColon⟩

/-- Every field of a list of header texts is made of one of them. -/
theorem exists_field_of_mem {raws : List String} {fields : Http.Fields}
    (h : raws.mapM HeaderText.field = .ok fields) {f : String × String} (hf : f ∈ fields) :
    ∃ raw, HeaderText.field raw = .ok f := by
  induction raws generalizing fields with
  | nil =>
    cases h
    cases hf
  | cons raw raws ih =>
    rw [List.mapM_cons] at h
    cases first : HeaderText.field raw with
    | error e =>
      rw [first] at h
      cases h
    | ok g =>
      cases rest : raws.mapM HeaderText.field with
      | error e =>
        rw [first, rest] at h
        cases h
      | ok gs =>
        rw [first, rest] at h
        cases h
        rcases List.mem_cons.1 hf with rfl | later
        · exact ⟨raw, first⟩
        · exact ih rest later

/-- No two header lines of a request of the command have one name, whatever the header texts are. -/
theorem pairwise_headerLines_of_mem_sent {q : Call.Sent}
    (hq : q ∈ (a.run config client start).sent) :
    (Wire.headerLines q.request).Pairwise fun k l => ¬ Wire.SameField k l := by
  rcases a.plan_cases config with ⟨plan, hp, own, -, headers⟩ | ⟨e, hp, -⟩
  · have solid : isAllBlank plan.authorization = false := own ▸ isAllBlank_credential a.token
    obtain ⟨n, sent, -⟩ := exists_sent_run client start hp solid
    rw [sent, List.mem_map] at hq
    obtain ⟨j, -, rfl⟩ := hq
    have whole : ((plan.order config.effective.policy).sentAt j).request =
        .make plan.method plan.url
          (plan.steps ++ [.field Call.authorizationField plan.authorization]) := by
      rw [Http.Request.make_concat, ← plan.request_eq_make]
      rfl
    rw [whole]
    refine Wire.pairwise_headerLines_of_plain fun name hname => ?_
    rw [Http.Request.names, List.filterMap_append, List.mem_append] at hname
    rcases hname with given | last
    · obtain ⟨f, hf, rfl⟩ := CallPlan.exists_mem_fields_of_mem_names given
      obtain ⟨raw, made⟩ := exists_field_of_mem headers hf
      exact plain_of_field made
    · obtain rfl : name = Call.authorizationField := by simpa [Http.Request.Step.name?] using last
      decide
  · simp [sent_run_of_error client start hp] at hq

end CallArguments

end WebCall.Command
