import Courier.Proofs.Fleet.Calls

/-! What the log of attempts remembers of an attempt that is done. The document of its outcome is
written once, by the errand that saw the outcome, and whoever finds the attempt done afterwards
finds that document. -/

namespace Courier

namespace AttemptLog

/-- The document of the attempt under `key`, if it is done. -/
def recorded? (log : AttemptLog) (key : String) : Option Json :=
  ((log.get? key).filter fun r => r.state = .done).map AttemptRecord.metadata

variable {log : AttemptLog} {staleAfter : Span} {now : Timestamp}

theorem state_of_recorded? {key : String} {m : Json} (h : log.recorded? key = some m) :
    (log.get? key).map AttemptRecord.state = some .done := by
  obtain ⟨r, found, -⟩ := Option.map_eq_some_iff.1 h
  obtain ⟨stored, done⟩ := Option.filter_eq_some_iff.1 found
  rw [stored, Option.map_some, of_decide_eq_true done]

theorem recorded?_of_begin {key : String} {r : AttemptRecord}
    (h : (begin staleAfter key now log).1 = .done r) : log.recorded? key = some r.metadata := by
  unfold begin at h
  cases stored : log.get? key with
  | none => simp [stored] at h
  | some r' =>
    simp only [stored] at h
    cases state : r'.state <;> simp only [state] at h
    · cases h
    · cases h
      simp [recorded?, stored, state]

theorem recorded?_begin (key k : String) :
    (begin staleAfter key now log).2.recorded? k = log.recorded? k := by
  by_cases first : (begin staleAfter key now log).1 = .first
  · obtain ⟨absent, written⟩ := begin_first first
    rw [written, recorded?, recorded?, Table.get?_insert]
    split_ifs with hk
    · rw [hk, absent]
      rfl
    · rfl
  · rw [begin_again first]

theorem recorded?_complete (key k : String) (m : Json) :
    (complete key m now log).recorded? k = if k = key then some m else log.recorded? k := by
  rw [complete, recorded?, Table.get?_insert]
  split_ifs <;> rfl

theorem recorded?_clear (key k : String) : (clear key log).recorded? k = log.recorded? k := by
  unfold clear
  cases stored : log.get? key with
  | none => rfl
  | some r =>
    dsimp only
    split_ifs with begun
    · rw [recorded?, recorded?, Table.get?_erase]
      split_ifs with hk
      · rw [hk, stored, Option.filter_some, if_neg (by simp [begun])]
        rfl
      · rfl
    · rfl

end AttemptLog

/-- The document of the attempt under `key`, if it is done. -/
def Engine.recorded? (e : Engine) (key : String) : Option Json :=
  AttemptLog.recorded? e.attempts key

/-- What a deed tells of the document under `key`: that it wrote it, or that it found it. -/
def Deed.tells? (key : String) : Deed → Option Json
  | ⟨.completeAttempt k m, .ok _⟩ => if k = key then some m else none
  | ⟨.beginAttempt k, .ok (.done r)⟩ => if k = key then some r.metadata else none
  | _ => none

namespace Engine

variable {e e' : Engine}

theorem beginAttempt_recorded {k : String} {r : Except Failure Beginning}
    (h : e.beginAttempt k = (r, e')) (key : String) : e'.recorded? key = e.recorded? key ∧
      ∀ m, Deed.tells? key ⟨.beginAttempt k, r⟩ = some m → e'.recorded? key = some m := by
  rcases onAttempts_cases
      (fun e => AttemptLog.begin e.config.attempts.staleAfter k e.now e.attempts) h with
    ⟨same, y, rfl⟩ | ⟨e₁, same, rfl, after⟩
  · exact ⟨by rw [recorded?, same, recorded?], nofun⟩
  · have kept : e'.recorded? key = e.recorded? key := by
      rw [recorded?, recorded?, after, ← same, AttemptLog.recorded?_begin]
    refine ⟨kept, fun m tells => ?_⟩
    cases answer : (AttemptLog.begin e₁.config.attempts.staleAfter k e₁.now e₁.attempts).1 with
    | done r =>
      obtain ⟨rfl, rfl⟩ : k = key ∧ r.metadata = m := by simpa [Deed.tells?, answer] using tells
      rw [kept, recorded?, ← same, AttemptLog.recorded?_of_begin answer]
    | first | underWay => simp [Deed.tells?, answer] at tells

theorem completeAttempt_recorded {k : String} {m : Json} {r : Except Failure Unit}
    (h : e.completeAttempt k m = (r, e')) (key : String) :
    e'.recorded? key = (Deed.tells? key ⟨.completeAttempt k m, r⟩).or (e.recorded? key) := by
  rcases onAttempts_cases (fun e => ((), AttemptLog.complete k m e.now e.attempts)) h with
    ⟨same, y, rfl⟩ | ⟨e₁, same, rfl, after⟩
  · rw [recorded?, same]
    rfl
  · rw [recorded?, recorded?, after, ← same, AttemptLog.recorded?_complete, Deed.tells?]
    simp only [eq_comm (a := k)]
    split_ifs <;> rfl

theorem clearAttempt_recorded {k : String} {r : Except Failure Unit}
    (h : e.clearAttempt k = (r, e')) (key : String) : e'.recorded? key = e.recorded? key := by
  rcases onAttempts_cases (fun e => ((), AttemptLog.clear k e.attempts)) h with
    ⟨same, y, rfl⟩ | ⟨e₁, same, rfl, after⟩
  · rw [recorded?, same, recorded?]
  · rw [recorded?, recorded?, after, ← same, AttemptLog.recorded?_clear]

/-- What an answered action tells of a document is so, and only the action that writes one changes
any. -/
theorem perform_recorded {a : Action} {r : a.Reply} (own : a.isForeign = false)
    (h : e.perform a = .reply r e') (key : String) :
    (∀ m, Deed.tells? key ⟨a, r⟩ = some m → e'.recorded? key = some m) ∧
      ((∀ m, a ≠ .completeAttempt key m) → e'.recorded? key = e.recorded? key) := by
  have kept := (perform_keeps own h).attempts
  cases a with
  | beginAttempt k =>
    have := beginAttempt_recorded (reply_inj h) key
    exact ⟨this.2, fun _ => this.1⟩
  | completeAttempt k m =>
    have written := completeAttempt_recorded (reply_inj h) key
    refine ⟨fun m' tells => by rw [written, tells, Option.some_or], fun other => ?_⟩
    have hk : k ≠ key := by
      rintro rfl
      exact other m rfl
    have silent : Deed.tells? key ⟨.completeAttempt k m, r⟩ = none := by
      cases r with
      | error => rfl
      | ok => exact if_neg hk
    rw [written, silent, Option.none_or]
  | clearAttempt k => exact ⟨nofun, fun _ => clearAttempt_recorded (reply_inj h) key⟩
  | _ => exact ⟨nofun, fun _ => congrArg (AttemptLog.recorded? · key) (kept nofun)⟩

end Engine

theorem Errand.Answered.recorded {e e' : Engine} {x x' : Errand} {a : Action} {r : a.Reply}
    (h : x.Answered e e' x' a r) (key : String) :
    (∀ m, Deed.tells? key ⟨a, r⟩ = some m → e'.recorded? key = some m) ∧
      ((∀ m, a ≠ .completeAttempt key m) → e'.recorded? key = e.recorded? key) := by
  rcases h.source with ⟨foreign, rfl⟩ | ⟨own, done⟩
  · refine ⟨fun m tells => ?_, fun _ => rfl⟩
    cases a <;> first | cases tells | cases foreign
  · exact Engine.perform_recorded own done key

namespace Fleet

variable {e : Engine} {f g : Fleet} {key : String} {m : Json}

/-- A document that is written is not written again: whoever writes has the attempt in progress. -/
theorem Guarded.recorded_answered (h : Guarded f) {n : Nat} {x x' : Errand} {e' : Engine}
    {a : Action} {r : a.Reply} (hx : f.errands[n]? = some x)
    (ans : x.Answered f.engine e' x' a r)
    (keeps : x.stage.plan.Keeps (guard x.job.attemptKey) x.grip)
    (recorded : f.engine.recorded? key = some m) : e'.recorded? key = some m := by
  rw [(ans.recorded key).2, recorded]
  rintro m' rfl
  obtain ⟨rfl, won⟩ := ans.allowed keeps
  have begun := h.held n x hx (by rw [won]; nofun)
  rw [Engine.attemptState?, AttemptLog.state_of_recorded? recorded] at begun
  cases begun

theorem Step.recorded (step : Step f g) (guarded : Guarded f) (keeping : Keeping f)
    (recorded : f.engine.recorded? key = some m) : g.engine.recorded? key = some m := by
  cases step with
  | begin => exact recorded
  | @move n x x' e' hx move =>
    rcases move.cases with ⟨a, r, ans⟩ | ⟨rfl, -⟩
    · exact guarded.recorded_answered hx ans (keeping x (List.mem_of_getElem? hx)) recorded
    · exact recorded
  | outside out =>
    rw [Engine.recorded?, out.attempts]
    exact recorded

/-- What an errand wrote down or found of an attempt that is done, the log has of it still. -/
theorem Steps.recorded (run : Steps (idle e) f) {x : Errand} (hx : x ∈ f.errands) {d : Deed}
    (hd : d ∈ x.past) (tells : d.tells? key = some m) : f.engine.recorded? key = some m := by
  induction run generalizing x with
  | refl => cases hx
  | tail run step ih =>
    have stays : Engine.recorded? _ key = some m → Engine.recorded? _ key = some m :=
      step.recorded (Steps.guarded run) (Steps.keeping run)
    rcases step.errand_cases hx with old | ⟨cfg, worker, job, rfl⟩ | ⟨y, hy, move⟩
    · exact stays (ih old hd)
    · cases hd
    · rcases move.cases with ⟨a, r, ans⟩ | ⟨-, hpast, -⟩
      · rw [ans.past, List.mem_append, List.mem_singleton] at hd
        rcases hd with hd | rfl
        · exact stays (ih hy hd)
        · exact (ans.recorded key).1 m tells
      · exact stays (ih hy (hpast ▸ hd))

end Fleet

end Courier
