import Courier.Proofs.Fleet.Chart

/-! What an errand reports of its job. It learns the outcome once, and that outcome is what it
writes into the log of attempts and what its envelope carries, however its calls are answered. -/

namespace Courier

open Plan

/-- What an errand has to report of its job. -/
inductive Report where
  | blank
  /-- The outcome that its envelope will carry, and whether the log of attempts gave it. -/
  | due (o : Outcome) (again : Bool)
  /-- The outcome that its envelope carried; the inbox had none for the job if `isNew`. -/
  | given (o : Outcome) (again isNew : Bool)

namespace Report

def outcome? : Report → Option Outcome
  | blank => none
  | due o _ | given o _ _ => some o

/-- The outcome that the log of attempts gave. -/
def found? : Report → Option Outcome
  | due o true | given o true _ => some o
  | _ => none

def give (isNew : Bool) : Report → Report
  | due o again => given o again isNew
  | s => s

/-- Whoever ends with a duplicate has sent what the log of attempts gave. -/
def Ends (s : Report) (r : Except Failure Disposition) : Prop :=
  r = .ok .duplicate → ∃ o isNew, s = .given o true isNew

end Report

/-- An errand learns the outcome of its job once, by its own call or from the log of attempts. It
writes down what it learned from its call, and what it learned is in its envelope. -/
def report (job : Job) : Rule Report where
  allows s
    | .beginAttempt k => k = job.attemptKey ∧ s = .blank
    | .callAdapter _ => s = .blank
    | .completeAttempt k m => k = job.attemptKey ∧ ∃ o, s = .due o false ∧ m = o.toJson
    | .appendEnvelope x => ∃ o again t, s = .due o again ∧ x = .ofJob job o t
    | _ => True
  after s
    | ⟨.beginAttempt _, .ok (.done r)⟩ => .due (Worker.recordedOutcome r) true
    | ⟨.beginAttempt _, .ok (.underWay true since)⟩ =>
      .due (.fault (Worker.unknownOutcome since)) false
    | ⟨.callAdapter i, r⟩ => .due (r.toOutcome i.platform) false
    | ⟨.appendEnvelope _, .ok isNew⟩ => s.give isNew
    | _ => s
  ends _ := True

namespace Worker

variable {s : Report} {cfg : Config} {worker : String} {job : Job} {route : String} {o : Outcome}
  {again : Bool}

theorem report_fail (e : Failure) :
    (fail e : Attempt Disposition).Ensures (report job) Report.Ends s := nofun

theorem report_defer (reason : Deferral) (t : Timestamp) :
    (defer worker job reason t).Ensures (report job) Report.Ends s := by
  refine ⟨trivial, fun r => ?_⟩
  cases r with
  | error e => exact report_fail e
  | ok => exact ⟨trivial, fun _ => nofun⟩

theorem report_publish (d : Disposition) (h : d = .duplicate → again = true) :
    (publish job o d).Ensures (report job) Report.Ends (.due o again) := by
  refine ⟨trivial, fun now => ⟨⟨o, again, now, rfl, rfl⟩, fun r => ?_⟩⟩
  cases r with
  | error e => exact report_fail e
  | ok isNew =>
    have given : Report.Ends (.given o again isNew) (.ok d) := by
      intro duplicate
      rw [h (Except.ok.inj duplicate)]
      exact ⟨o, isNew, rfl⟩
    cases isNew with
    | false => exact ⟨trivial, fun _ => given⟩
    | true => exact ⟨trivial, fun _ => ⟨trivial, fun _ => given⟩⟩

theorem report_deadLetter (reason : String) :
    (deadLetter worker job reason o).Ensures (report job) Report.Ends (.due o again) := by
  refine ⟨trivial, fun r => ?_⟩
  cases r with
  | error e => exact report_fail e
  | ok => exact ⟨trivial, fun _ => report_publish _ nofun⟩

theorem report_returnPassage {p : Passage} {k : Attempt Disposition}
    (h : k.Ensures (report job) Report.Ends s) :
    (returnPassage route p k).Ensures (report job) Report.Ends s := by
  unfold returnPassage
  split_ifs
  · exact ⟨trivial, fun _ => h⟩
  · exact h

theorem report_returnAll {held : Holdings} {k : Attempt Disposition}
    (h : k.Ensures (report job) Report.Ends s) :
    (returnAll held k).Ensures (report job) Report.Ends s :=
  ⟨trivial, fun _ => report_returnPassage h⟩

theorem report_handBack {held : Holdings} {k : Attempt Disposition}
    (h : k.Ensures (report job) Report.Ends s) :
    (handBack held k).Ensures (report job) Report.Ends s :=
  report_returnPassage ⟨trivial, fun _ => h⟩

theorem report_settle (p : Passage) :
    (settle cfg worker job route p o).Ensures (report job) Report.Ends (.due o false) := by
  unfold settle
  split_ifs
  · refine ⟨trivial, fun _ => ⟨trivial, fun _ => ⟨⟨rfl, o, rfl, rfl⟩, fun r => ?_⟩⟩⟩
    cases r with
    | error e => exact report_fail e
    | ok =>
      refine ⟨trivial, fun r => ?_⟩
      rcases r with (_ | _) | _
      · exact report_publish _ nofun
      · exact report_fail _
      · exact report_publish _ nofun
  · refine ⟨trivial, fun _ => ⟨trivial, fun _ => ⟨trivial, fun r => ?_⟩⟩⟩
    cases r with
    | error e => exact report_fail e
    | ok =>
      dsimp only
      split_ifs
      · refine ⟨trivial, fun _ => ⟨trivial, fun _ => ⟨trivial, fun r => ?_⟩⟩⟩
        cases r with
        | error e => exact report_fail e
        | ok => exact ⟨trivial, fun _ => nofun⟩
      · exact report_deadLetter _
  · refine report_returnPassage ⟨trivial, fun r => ?_⟩
    cases r with
    | error e => exact report_fail e
    | ok =>
      refine ⟨trivial, fun r => ?_⟩
      cases r with
      | error e => exact report_fail e
      | ok => exact report_publish _ nofun

theorem report_carryOut (held : Holdings) :
    (carryOut cfg worker job held).Ensures (report job) Report.Ends .blank := by
  refine ⟨trivial, fun content => ?_⟩
  dsimp only
  cases content.apply job.intent with
  | none => exact report_returnAll (report_fail _)
  | some intent =>
    refine ⟨trivial, fun r => ?_⟩
    rcases r with (_ | _) | _
    · refine report_handBack ⟨trivial, fun r => ?_⟩
      cases r with
      | error e => exact report_fail e
      | ok => exact nofun
    · exact report_returnAll (report_fail _)
    · refine ⟨trivial, fun _ => ⟨trivial, fun _ => ⟨rfl, fun reply => ⟨trivial, fun r => ?_⟩⟩⟩⟩
      rcases r with (_ | _) | _
      · exact report_settle _
      · exact report_returnPassage (report_fail _)
      · exact report_settle _

theorem report_beginAttempt (held : Holdings) :
    (beginAttempt cfg worker job held).Ensures (report job) Report.Ends .blank := by
  refine ⟨⟨rfl, rfl⟩, fun r => ?_⟩
  rcases r with _ | (_ | ⟨stale, since⟩ | record)
  · exact report_returnAll (report_fail _)
  · exact report_carryOut held
  · cases stale with
    | false => exact report_handBack (report_defer _ _)
    | true => exact report_handBack (report_deadLetter _)
  · refine report_handBack ⟨trivial, fun r => ?_⟩
    cases r with
    | error e => exact report_fail e
    | ok => exact report_publish _ fun _ => rfl

/-- Processing a job reports what is learned of it, whatever its calls are answered. -/
theorem report_process (cfg : Config) (worker : String) (job : Job) :
    (process cfg worker job).Ensures (report job) Report.Ends .blank := by
  refine ⟨trivial, fun now => ⟨trivial, fun wait => ?_⟩⟩
  dsimp only
  split_ifs
  · exact report_defer _ _
  · refine ⟨trivial, fun passage => ?_⟩
    dsimp only
    split_ifs
    · exact report_defer _ _
    · refine ⟨trivial, fun room => ?_⟩
      dsimp only
      split_ifs
      · exact report_returnPassage (report_defer _ _)
      · exact report_beginAttempt _

end Worker

namespace Deed

/-- The document that a deed was to write. -/
def document? : Deed → Option Json
  | ⟨.completeAttempt _ m, _⟩ => some m
  | _ => none

/-- Whether the envelope that the inbox took was the first of its job. -/
def isNew? : Deed → Option Bool
  | ⟨.appendEnvelope _, .ok isNew⟩ => some isNew
  | _ => none

theorem isNew?_of_stored? {d : Deed} {id : JobId} (h : d.stored? = some id) :
    d.isNew? = some true := by
  obtain ⟨a, r⟩ := d
  cases a with
  | appendEnvelope =>
    rcases r with _ | (_ | _)
    · cases h
    · cases h
    · rfl
  | _ => cases h

end Deed

/-- How a deed moves the report of an errand for `job`. -/
inductive ReportMove (job : Job) : Report → Deed → Report → Prop where
  | kept {s : Report} {d : Deed} : d.outcome? = none → d.document? = none → d.isNew? = none →
      ReportMove job s d s
  | called {i : Intent} {r : AdapterReply} :
      ReportMove job .blank ⟨.callAdapter i, r⟩ (.due (r.toOutcome i.platform) false)
  | found {r : AttemptRecord} : ReportMove job .blank
      ⟨.beginAttempt job.attemptKey, .ok (.done r)⟩ (.due (Worker.recordedOutcome r) true)
  | stale {k : String} {since : Timestamp} {o : Outcome} :
      ReportMove job .blank ⟨.beginAttempt k, .ok (.underWay true since)⟩ (.due o false)
  | written {o : Outcome} {k : String} {r : Except Failure Unit} :
      ReportMove job (.due o false) ⟨.completeAttempt k o.toJson, r⟩ (.due o false)
  | given {o : Outcome} {again isNew : Bool} {t : Timestamp} : ReportMove job (.due o again)
      ⟨.appendEnvelope (.ofJob job o t), .ok isNew⟩ (.given o again isNew)

theorem report_move {job : Job} {s : Report} {a : Action} (h : (report job).allows s a)
    (r : a.Reply) : ReportMove job s ⟨a, r⟩ ((report job).after s ⟨a, r⟩) := by
  cases a with
  | beginAttempt k =>
    obtain ⟨rfl, rfl⟩ := h
    rcases r with _ | (_ | ⟨_ | _, since⟩ | record)
    · exact .kept rfl rfl rfl
    · exact .kept rfl rfl rfl
    · exact .kept rfl rfl rfl
    · exact .stale
    · exact .found
  | callAdapter i =>
    cases h
    exact .called
  | completeAttempt k m =>
    obtain ⟨-, o, rfl, rfl⟩ := h
    exact .written
  | appendEnvelope x =>
    obtain ⟨o, again, t, rfl, rfl⟩ := h
    cases r with
    | error => exact .kept rfl rfl rfl
    | ok => exact .given
  | _ => exact .kept rfl rfl rfl

/-- What the past of an errand says of its report. -/
structure Reported (job : Job) (past : List Deed) (s : Report) : Prop where
  called : ∀ d ∈ past, ∀ o, d.outcome? = some o → s.outcome? = some o
  written : ∀ d ∈ past, ∀ m, d.document? = some m → ∃ o, s.outcome? = some o ∧ m = o.toJson
  sent : ∀ d ∈ past, ∀ isNew, d.isNew? = some isNew → ∃ o again, s = .given o again isNew
  found : ∀ o, s.found? = some o → ∃ r, o = Worker.recordedOutcome r ∧
    (⟨.beginAttempt job.attemptKey, .ok (.done r)⟩ : Deed) ∈ past
  given : ∀ o again isNew, s = .given o again isNew →
    ∃ t, (⟨.appendEnvelope (.ofJob job o t), .ok isNew⟩ : Deed) ∈ past

theorem reported_nil (job : Job) : Reported job [] .blank := by
  constructor <;> simp [Report.found?]

/-- Every move keeps the past and the report together. -/
theorem Reported.snoc {job : Job} {past : List Deed} {s s' : Report} {d : Deed}
    (h : Reported job past s) (move : ReportMove job s d s') : Reported job (past ++ [d]) s' := by
  have now : d ∈ past ++ [d] := List.mem_append_right _ List.mem_cons_self
  constructor
  · simp only [List.forall_mem_append, List.forall_mem_singleton]
    cases move with
    | kept none => exact ⟨h.called, by simp [none]⟩
    | called => exact ⟨fun d hd o ho => (nomatch h.called d hd o ho), fun o ho => ho⟩
    | found | stale => exact ⟨fun d hd o ho => (nomatch h.called d hd o ho), nofun⟩
    | written | given => exact ⟨h.called, nofun⟩
  · simp only [List.forall_mem_append, List.forall_mem_singleton]
    cases move with
    | kept _ none => exact ⟨h.written, by simp [none]⟩
    | called | found | stale =>
      refine ⟨fun d hd m hm => ?_, nofun⟩
      obtain ⟨o, none, -⟩ := h.written d hd m hm
      cases none
    | @written o =>
      refine ⟨h.written, fun m hm => ⟨o, rfl, ?_⟩⟩
      cases hm
      rfl
    | given => exact ⟨h.written, nofun⟩
  · simp only [List.forall_mem_append, List.forall_mem_singleton]
    -- what the inbox took before belongs to an errand that has given its report
    have unsent : (∀ o again isNew, s ≠ .given o again isNew) → ∀ d ∈ past, ∀ isNew,
        d.isNew? = some isNew → ∃ o again, s' = .given o again isNew := by
      intro due d hd isNew hd'
      obtain ⟨o, again, hs⟩ := h.sent d hd isNew hd'
      exact absurd hs (due o again isNew)
    cases move with
    | kept _ _ none => exact ⟨h.sent, by simp [none]⟩
    | called | found | stale | written => exact ⟨unsent nofun, nofun⟩
    | @given o again isNew =>
      refine ⟨unsent nofun, fun isNew' same => ⟨o, again, ?_⟩⟩
      cases same
      rfl
  · intro o ho
    have before : s.found? = some o → ∃ r, o = Worker.recordedOutcome r ∧
        (⟨.beginAttempt job.attemptKey, .ok (.done r)⟩ : Deed) ∈ past ++ [d] := by
      intro hs
      obtain ⟨r, hr, hd⟩ := h.found o hs
      exact ⟨r, hr, List.mem_append_left _ hd⟩
    cases move with
    | kept | written => exact before ho
    | called | stale => cases ho
    | @found r =>
      cases ho
      exact ⟨r, rfl, now⟩
    | @given _ again =>
      cases again with
      | false => cases ho
      | true => exact before ho
  · rintro o again isNew rfl
    cases move with
    | kept =>
      obtain ⟨t, hd⟩ := h.given o again isNew rfl
      exact ⟨t, List.mem_append_left _ hd⟩
    | @given _ _ _ t => exact ⟨t, now⟩

end Courier
