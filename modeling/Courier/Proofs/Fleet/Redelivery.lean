import Courier.Proofs.Fleet.Envelopes
import Courier.Proofs.Fleet.Memory
import Courier.Proofs.Fleet.Report
import Courier.Proofs.Outcome.Codec

/-! A success that was written down, but whose envelope did not go out, is reported by the next
errand for the job. The outcome goes from the adapter call of one errand to the log as a document,
and from the log to the inbox by another errand; no more of it arrives than the document holds. -/

namespace Courier

open Plan

/-- Whether a deed marked the attempt under `key` as done. -/
def Deed.hasWritten (key : String) : Deed → Bool
  | ⟨.completeAttempt k _, .ok _⟩ => k = key
  | _ => false

theorem Deed.tells?_of_hasWritten {key : String} {d : Deed} (h : d.hasWritten key = true) :
    ∃ m, d.document? = some m ∧ d.tells? key = some m := by
  obtain ⟨a, r⟩ := d
  cases a with
  | completeAttempt k m =>
    cases r with
    | error => cases h
    | ok => exact ⟨m, rfl, if_pos (of_decide_eq_true h)⟩
  | _ => cases h

namespace Errand

/-- The adapter reported `o` to the errand, which marked the attempt as done. -/
def HasRecorded (x : Errand) (o : Outcome) : Prop :=
  (∃ i, (⟨.callAdapter i, .outcome o⟩ : Deed) ∈ x.past) ∧
    ∃ d ∈ x.past, d.hasWritten x.job.attemptKey = true

/-- The errand put the envelope of its job into the inbox. -/
def HasStored (x : Errand) : Prop := ∃ d ∈ x.past, d.stored? = some x.job.id

/-- What became of the job when the errand has come to its end. -/
def disposition? (x : Errand) : Option Disposition :=
  match x.stage with
  | .acting (.done (.ok d)) => some d
  | _ => none

theorem stage_of_disposition? {x : Errand} {d : Disposition} (h : x.disposition? = some d) :
    x.stage = .acting (.done (.ok d)) := by
  unfold disposition? at h
  split at h
  · rename_i hs
    cases h
    exact hs
  · cases h

end Errand

namespace Fleet

variable {e : Engine} {f g : Fleet} {x y : Errand} {o : Outcome}

theorem Steps.reported (run : Steps (idle e) f) (hx : x ∈ f.errands) :
    Reported x.job x.past (standing report .blank x) :=
  Steps.standing_induction (P := Reported)
    (fun cfg worker job => (Worker.report_process cfg worker job).keeps fun _ _ _ => trivial)
    reported_nil (fun _ _ _ _ r h allowed => h.snoc (report_move allowed r)) run hx

/-- What an errand learned from its call and wrote down is what the log has. -/
theorem Steps.recorded_of_hasRecorded (run : Steps (idle e) f) (hx : x ∈ f.errands)
    (recorded : x.HasRecorded o) : f.engine.recorded? x.job.attemptKey = some o.toJson := by
  obtain ⟨⟨i, called⟩, d, hd, written⟩ := recorded
  obtain ⟨m, document, tells⟩ := Deed.tells?_of_hasWritten written
  have reported := Steps.reported run hx
  obtain ⟨o', learned, rfl⟩ := reported.written d hd m document
  rw [reported.called _ called _ rfl] at learned
  cases learned
  exact Steps.recorded run hx hd tells

/-- An errand that ended with a duplicate sent what it found in the log. -/
theorem Steps.sent_of_duplicate (run : Steps (idle e) f) (hy : y ∈ f.errands)
    (duplicate : y.disposition? = some .duplicate) :
    ∃ r t isNew, f.engine.recorded? y.job.attemptKey = some r.metadata ∧
      (⟨.appendEnvelope (.ofJob y.job (Worker.recordedOutcome r) t), .ok isNew⟩ : Deed) ∈
        y.past := by
  have ensures := Steps.ensures (Q := fun _ => Report.Ends) Worker.report_process run hy
  rw [Errand.stage_of_disposition? duplicate] at ensures
  obtain ⟨o, isNew, given⟩ := ensures rfl
  have reported := Steps.reported run hy
  obtain ⟨r, rfl, found⟩ := reported.found o (by rw [given]; rfl)
  obtain ⟨t, sent⟩ := reported.given _ _ _ given
  exact ⟨r, t, isNew, Steps.recorded run hy found (if_pos rfl), sent⟩

/-- An envelope that the inbox did not need was preceded by one that another errand had sent. -/
theorem Steps.stored_of_old (hq : e.queue = .empty) (hi : e.inbox = .empty)
    (run : Steps (idle e) f) (hy : y ∈ f.errands) {v : Envelope}
    (sent : (⟨.appendEnvelope v, .ok false⟩ : Deed) ∈ y.past) :
    ∃ z ∈ f.errands, z ≠ y ∧ z.job.id = y.job.id ∧ z.HasStored := by
  obtain ⟨z, hz, d, hd, stored⟩ := (Steps.accounted hq hi run).sent y hy ⟨_, sent, rfl⟩
  have own := (Steps.booked run hz).own d hd _ (Or.inr stored)
  refine ⟨z, hz, ?_, own.symm, d, hd, own ▸ stored⟩
  rintro rfl
  -- an errand sends one envelope only
  have reported := Steps.reported run hz
  obtain ⟨o, again, given⟩ := reported.sent _ sent _ rfl
  obtain ⟨o', again', given'⟩ := reported.sent _ hd _ (Deed.isNew?_of_stored? stored)
  rw [given] at given'
  cases given'

/-- Where one errand has written down the outcome of a job, another that ends with a duplicate has
sent an envelope; the inbox had none, unless a third errand sent one. The envelope carries the
outcome as the adapter reported it exactly when all its costs are finite, else a bare success. -/
theorem Steps.redelivers {config : Config} {start : Timestamp} {surroundings : Surroundings}
    (run : Steps (idle (.create config start surroundings)) f) (hx : x ∈ f.errands)
    (hy : y ∈ f.errands) {intentId : String} {id : JobId} (forX : x.IsFor intentId id)
    (forY : y.IsFor intentId id) (record : o.IsRecord) (recorded : x.HasRecorded o)
    (duplicate : y.disposition? = some .duplicate) :
    ∃ o' t isNew, (⟨.appendEnvelope (.ofJob y.job o' t), .ok isNew⟩ : Deed) ∈ y.past ∧
      (isNew = true ∨ ∃ z ∈ f.errands, z ≠ y ∧ z.job.id = id ∧ z.HasStored) ∧
      (o' = o ↔ o.FiniteCosts) ∧ (o' = o ∨ o' = .success) := by
  obtain ⟨r, t, isNew, found, sent⟩ := Steps.sent_of_duplicate run hy duplicate
  have document : r.metadata = o.toJson := by
    rw [← forX.attemptKey_eq forY, Steps.recorded_of_hasRecorded run hx recorded] at found
    exact (Option.some.inj found).symm
  rw [Worker.recordedOutcome_eq record document] at sent
  refine ⟨o.kept, t, isNew, sent, ?_, o.kept_eq_iff, ?_⟩
  · cases isNew with
    | true => exact Or.inl rfl
    | false => exact Or.inr (forY.2 ▸ Steps.stored_of_old rfl rfl run hy sent)
  · unfold Outcome.kept
    split_ifs
    · exact Or.inl rfl
    · exact Or.inr rfl

/-- A success with something in every field, for which the adapter charges `usd`. -/
def pricedSuccess (usd : Float) : Outcome where
  status := .success
  effects := [.obj [("message", .str "m-1")]]
  costs := [("usd", usd)]
  observations := .bool true
  failure := .nothing
  reason := some "sent"

theorem isRecord_pricedSuccess (usd : Float) : (pricedSuccess usd).IsRecord where
  effects := by
    rintro _ (_ | ⟨_, ⟨⟩⟩)
    refine .obj (by simp [Json.Ascending]) ?_
    rintro _ (_ | ⟨_, ⟨⟩⟩)
    exact .str "m-1"
  costs := by simp [pricedSuccess, Json.Ascending]
  observations := .bool true

/-- A worker has called the adapter. The queue will refuse its acknowledgement, and the inbox its
envelope. -/
def callUnderWay : Fleet :=
  [.enqueue (Queue.sampleJob 1 "post-1"), .disturb .completeJob [.fail],
    .disturb .appendEnvelope [.fail], .loop (.leaseJobs "w-1" 1 (.ofMillis 1000)),
    .begin "w-1" ⟨.ofNat 1⟩, .turns 0 20].foldl follow (idle (.create .usual .epoch .quiet))

/-- The adapter reports a success; when the lease has run out another worker takes the job. -/
def reportedAgain (usd : Float) : Fleet :=
  [.turns 0 20, .sleep 60000, .loop .reclaimJobs, .loop (.leaseJobs "w-2" 1 (.ofMillis 1000)),
    .begin "w-2" ⟨.ofNat 1⟩, .turns 1 20].foldl follow
    (callUnderWay.follow (.arrive 0 (.outcome (pricedSuccess usd))))

theorem reportedAgain_steps (usd : Float) :
    Steps (idle (.create .usual .epoch .quiet)) (reportedAgain usd) :=
  (foldl_follow_steps _ _).trans ((follow_steps _ _).trans (foldl_follow_steps _ _))

/-- The first errand has heard of the success; what it did about it can be looked up. -/
theorem exists_hasRecorded (usd : Float)
    (h : ((reportedAgain usd).errands[0]?.all fun x => decide (x.IsFor "post-1" ⟨.ofNat 1⟩) &&
      x.past.any (Deed.hasWritten x.job.attemptKey)) = true) :
    ∃ x ∈ (reportedAgain usd).errands, x.IsFor "post-1" ⟨.ofNat 1⟩ ∧
      x.HasRecorded (pricedSuccess usd) := by
  have waiting : callUnderWay.errands[0]?.map (fun x => x.stage.isCalling) = some true := by
    decide +kernel
  obtain ⟨x, hx, hc⟩ := Option.map_eq_some_iff.1 waiting
  cases hs : x.stage with
  | acting => rw [hs] at hc; cases hc
  | calling i next =>
    have arrived : (callUnderWay.follow (.arrive 0 (.outcome (pricedSuccess usd)))).errands[0]? =
        some (x.onward (.callAdapter i) (.outcome (pricedSuccess usd)) next) := by
      simp only [follow, hx, hs]
      exact List.getElem?_set_self (List.getElem?_eq_some_iff.1 hx).1
    obtain ⟨x', hx', past⟩ := Steps.track (foldl_follow_steps _ _) arrived
    rw [show (reportedAgain usd).errands[0]? = some x' from hx', Option.all_some,
      Bool.and_eq_true, List.any_eq_true] at h
    refine ⟨x', List.mem_of_getElem? hx', of_decide_eq_true h.1, ⟨i, past _ ?_⟩, h.2⟩
    exact List.mem_append_right _ List.mem_cons_self

theorem redelivers_reportedAgain : ∃ y ∈ (reportedAgain 1.5).errands, ∃ t isNew,
    (⟨.appendEnvelope (.ofJob y.job (pricedSuccess 1.5) t), .ok isNew⟩ : Deed) ∈ y.past := by
  obtain ⟨x, hx, forX, recorded⟩ := exists_hasRecorded 1.5 (by decide +kernel)
  have ended : ∃ y ∈ (reportedAgain 1.5).errands, y.IsFor "post-1" ⟨.ofNat 1⟩ ∧
      y.disposition? = some .duplicate := by decide +kernel
  obtain ⟨y, hy, forY, duplicate⟩ := ended
  obtain ⟨o, t, isNew, sent, -, same, -⟩ := (reportedAgain_steps 1.5).redelivers hx hy forX forY
    (isRecord_pricedSuccess 1.5) recorded duplicate
  rw [same.2 (by decide)] at sent
  exact ⟨y, hy, t, isNew, sent⟩

/-- Whether a deed took an envelope to the inbox that tells of no costs. -/
def isFree : Deed → Bool
  | ⟨.appendEnvelope v, .ok _⟩ => v.outcome.costs.isEmpty
  | _ => false

/-- A success at an infinite price is written down, and its envelope does not go out; the errand
that comes after it reports a success that cost nothing. -/
theorem exists_redelivered_bare : ∃ (f : Fleet) (x y : Errand) (o : Outcome),
    Steps (idle (.create .usual .epoch .quiet)) f ∧ x ∈ f.errands ∧ y ∈ f.errands ∧
    x.job.id = y.job.id ∧ o.isSuccess = true ∧ x.HasRecorded o ∧
    (∀ z ∈ f.errands, z.HasStored → z.disposition? = some .duplicate) ∧
    y.disposition? = some .duplicate ∧
    ∃ v isNew, (⟨.appendEnvelope v, .ok isNew⟩ : Deed) ∈ y.past ∧ v.outcome ≠ o := by
  obtain ⟨x, hx, forX, recorded⟩ := exists_hasRecorded (1 / 0) (by decide +kernel)
  have stored : ∀ z ∈ (reportedAgain (1 / 0)).errands,
      (∃ d ∈ z.past, d.stored? = some z.job.id) → z.disposition? = some .duplicate := by
    decide +kernel
  have ended : ∃ y ∈ (reportedAgain (1 / 0)).errands, y.IsFor "post-1" ⟨.ofNat 1⟩ ∧
      y.disposition? = some .duplicate ∧ ∃ d ∈ y.past, isFree d = true := by decide +kernel
  obtain ⟨y, hy, forY, duplicate, ⟨a, r⟩, hd, free⟩ := ended
  refine ⟨_, x, y, pricedSuccess (1 / 0), reportedAgain_steps _, hx, hy, forX.2.trans forY.2.symm,
    rfl, recorded, stored, duplicate, ?_⟩
  cases a with
  | appendEnvelope v =>
    cases r with
    | error => cases free
    | ok isNew =>
      refine ⟨v, isNew, hd, fun same => ?_⟩
      have free : v.outcome.costs.isEmpty = true := free
      rw [same] at free
      cases free
  | _ => cases free

end Fleet

end Courier
