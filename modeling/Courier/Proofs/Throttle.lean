import Courier.Proofs.Number.Exact
import Courier.Proofs.Plan
import Courier.Proofs.Pacing
import Courier.Worker.Process

/-! A job that pacing held back comes through, in exact arithmetic. The spacing of its route grows
with the time that the job waits, but by no more than that time; so when the job is due again, the
route is ready for it, and stays so as long as nothing else slows it down. -/

namespace Courier

open Plan

namespace Pacing

open Quantity

section

variable {c : PacingConfig ℚ} {d d' : ℚ}

theorem spacing_eq (c : PacingConfig ℚ) (d : ℚ) (lag : Span) : spacing c d lag =
    min (d + lag.toMillis.toNat / 1000 * c.lagPenaltyPerSec) c.maxDelaySecs := by
  have whole : ((max lag.toMillis 0 : ℤ) : ℚ) = lag.toMillis.toNat := by
    rw [← Int.ofNat_toNat]
    rfl
  simp [spacing, ← whole]

/-- A second of waiting adds a second to the spacing at most. -/
theorem spacing_le (least : 0 ≤ c.lagPenaltyPerSec) (most : c.lagPenaltyPerSec ≤ 1)
    (shorter : d' ≤ d) (lag lag' : Span) :
    spacing c d' lag' ≤ spacing c d lag + lag'.toMillis.toNat / 1000 := by
  have waited : (0 : ℚ) ≤ lag.toMillis.toNat / 1000 := by positivity
  have waits : (0 : ℚ) ≤ lag'.toMillis.toNat / 1000 := by positivity
  have before := mul_nonneg waited least
  have after := mul_le_of_le_one_right waits most
  rw [spacing_eq, spacing_eq, ← min_add_add_right]
  exact min_le_min (by linarith) (by linarith)

theorem ofQuantity_le {x y : ℚ} {k : ℕ} (h : x ≤ y + k / 1000) :
    (Span.ofQuantity x).nanos ≤ (Span.ofQuantity y).nanos + k * 1000000 := by
  have more : max x 0 * 1000 ≤ max y 0 * 1000 + k := by
    have positive : max x 0 ≤ max y 0 + k / 1000 :=
      max_le (h.trans (by gcongr; exact le_max_left _ _)) (by positivity)
    linarith
  have whole : nearest (max x 0 * 1000) ≤ nearest (max y 0 * 1000) + k :=
    (nearest_mono more).trans (nearest_add_natCast_le (by positivity) k)
  have unfolds (q : ℚ) : Span.ofQuantity q = .ofMillis (nearest (max q 0 * 1000)) := by
    simp [Span.ofQuantity]
  rw [unfolds, unfolds]
  simp only [Span.ofMillis, Span.clamp, longestNanos]
  omega

/-- When the time `t` of a send comes, the route is ready for it, however much longer the spacing
has become by then. -/
theorem ready_le (least : 0 ≤ c.lagPenaltyPerSec) (most : c.lagPenaltyPerSec ≤ 1)
    (shorter : d' ≤ d) (lag : Span) {last due t : Timestamp}
    (ready : last.add (Span.ofQuantity (spacing c d lag)) = due) (later : due ≤ t) :
    last.add (Span.ofQuantity (spacing c d' ((t.since due).orLonger .zero))) ≤ t := by
  have waited := Timestamp.time_left_nanos later
  have later : due.nanos ≤ t.nanos := later
  generalize (t.since due).orLonger .zero = lag' at waited ⊢
  have whole : lag'.toMillis.toNat * 1000000 ≤ t.nanos - due.nanos :=
    waited ▸ Span.toMillis_le (by omega)
  have longer := ofQuantity_le (spacing_le least most shorter lag lag')
  have before : (last.add (Span.ofQuantity (spacing c d lag))).nanos = due.nanos := by rw [ready]
  show (last.add _).nanos ≤ t.nanos
  simp only [Timestamp.add, Timestamp.clamp] at before ⊢
  have := t.lower
  omega

/-- A route without a state of its own is one without a delay. -/
theorem wait_eq (c : PacingConfig ℚ) (route : String) (lag : Span) (t : Timestamp) (p : Pacing ℚ) :
    wait c route lag t p = Pace.wait c lag t (pace p route) := by
  rw [wait, pace]
  cases p.get? route with
  | none => rfl
  | some s => rfl

/-- What can be told of a route that has to be waited for. -/
theorem waiting {route : String} {lag : Span} {now : Timestamp} {p : Pacing ℚ}
    (h : Span.zero < wait c route lag now p) : ∃ last, lastSent p route = some last ∧
      0 < delay p route ∧
      last.add (Span.ofQuantity (spacing c (delay p route) lag)) =
        now.add (wait c route lag now p) := by
  rw [wait_eq, Pace.wait] at h ⊢
  split_ifs at h ⊢ with none
  · exact absurd h (Int.lt_irrefl _)
  · have slow : 0 < (pace p route).delaySecs :=
      not_le.1 fun le => none ((le_rat_iff _ _).2 (by simpa using le))
    cases sent : (pace p route).lastSentAt with
    | none =>
      rw [sent] at h
      exact absurd h (Int.lt_irrefl _)
    | some last =>
      rw [sent] at h
      exact ⟨last, sent, slow, (Timestamp.add_time_left h).symm⟩

theorem wait_of_ready {route : String} {lag : Span} {t last : Timestamp} {p : Pacing ℚ}
    (sent : lastSent p route = some last)
    (ready : last.add (Span.ofQuantity (spacing c (delay p route) lag)) ≤ t) :
    wait c route lag t p = .zero := by
  have sent : (pace p route).lastSentAt = some last := sent
  rw [wait_eq, Pace.wait, sent]
  split_ifs
  · rfl
  · exact Timestamp.no_time_left ready

end

/-- What an action does to pacing, other actions than its own nothing. -/
def heed (c : PacingConfig ℚ) (p : Pacing ℚ) : Action → Pacing ℚ
  | .pacingSend route t => recordSend route t p
  | .pacingSuccess route => recordSuccess c route p
  | .pacingFailure route o => recordFailure c route o p
  | _ => p

/-- The action does not slow the route down: it records neither a send nor a failure on it, and a
success only where that shortens delays. -/
def Spares (c : PacingConfig ℚ) (route : String) : Action → Prop
  | .pacingSend r _ | .pacingFailure r _ => r ≠ route
  | .pacingSuccess r => r = route → 0 ≤ c.stepSecs
  | _ => True

/-- The route has had no further send, and no more of a delay. -/
structure NoSlower (route : String) (p p' : Pacing ℚ) : Prop where
  sent : lastSent p' route = lastSent p route
  delay : delay p' route ≤ max (delay p route) 0

section

variable {c : PacingConfig ℚ} {route : String} {p p' p'' : Pacing ℚ}

theorem NoSlower.refl (route : String) (p : Pacing ℚ) : NoSlower route p p :=
  ⟨rfl, le_max_left _ _⟩

theorem NoSlower.trans (h : NoSlower route p p') (h' : NoSlower route p' p'') :
    NoSlower route p p'' :=
  ⟨h'.sent.trans h.sent, h'.delay.trans (max_le h.delay (le_max_right _ _))⟩

theorem NoSlower.of_pace (h : pace p' route = pace p route) : NoSlower route p p' :=
  ⟨by rw [lastSent, h, lastSent], by rw [Pacing.delay, h]; exact le_max_left _ _⟩

theorem noSlower_heed {a : Action} (h : Spares c route a) : NoSlower route p (heed c p a) := by
  cases a with
  | pacingSend r t =>
    refine .of_pace ?_
    rw [heed, recordSend, pace_update, if_neg (Ne.symm h)]
  | pacingFailure r o =>
    refine .of_pace ?_
    rw [heed, recordFailure]
    split_ifs
    · rw [pace_update, if_neg (Ne.symm h)]
    · rfl
  | pacingSuccess r =>
    refine ⟨lastSent_recordSuccess c r p route, ?_⟩
    rw [heed, Pacing.delay, pace, recordSuccess, Table.get?_modify]
    split_ifs with same
    · have step := h same.symm
      subst same
      rw [Pacing.delay, pace]
      cases p.get? route with
      | none => exact le_max_left _ _
      | some s =>
        simp only [Option.map_some, Option.getD_some, atLeast_rat, sub_rat]
        exact max_le_max_right _ (by linarith)
    · exact le_max_left _ _
  | _ => exact .refl route p

theorem noSlower_foldl {between : List Action} (h : ∀ a ∈ between, Spares c route a) :
    NoSlower route p (between.foldl (heed c) p) := by
  induction between generalizing p with
  | nil => exact .refl route p
  | cons a rest ih =>
    exact (noSlower_heed (h a (by simp))).trans (ih fun b hb => h b (by simp [hb]))

end

end Pacing

/-- The plan, answered so, ends with this result. -/
inductive Plan.Goes {α : Type} : Plan α → List Deed → α → Prop where
  | done (a : α) : (Plan.done a).Goes [] a
  | step {a : Action} {next : a.Reply → Plan α} {rest : List Deed} {b : α} (r : a.Reply)
      (goes : (next r).Goes rest b) : (Plan.step a next).Goes (⟨a, r⟩ :: rest) b

namespace Worker

variable {cfg : Config} {worker route : String} {job : Job} {held : Holdings}

/-- Whatever the plan is answered, it does not end with the job deferred by pacing. -/
def Unpaced : Attempt Disposition → Prop
  | .done r => r ≠ .ok (.deferred .pacing)
  | .step _ next => ∀ r, Unpaced (next r)

theorem Unpaced.result {p : Attempt Disposition} (h : Unpaced p) {past : List Deed}
    {r : Except Failure Disposition} (goes : p.Goes past r) : r ≠ .ok (.deferred .pacing) := by
  induction goes with
  | done r => exact h
  | step r _ ih => exact ih (h r)

theorem unpaced_fail (e : Failure) : Unpaced (fail e) := nofun

theorem unpaced_defer (reason : Deferral) (other : reason ≠ .pacing) (t : Timestamp) :
    Unpaced (defer worker job reason t) := by
  intro r
  cases r with
  | error e => exact unpaced_fail e
  | ok =>
    intro _ same
    cases same
    exact other rfl

theorem unpaced_publish (o : Outcome) {d : Disposition} (other : d ≠ .deferred .pacing) :
    Unpaced (publish job o d) := by
  have last : Unpaced (.step (.emit (.completed job.id o.failure)) fun _ => give d) := by
    intro _ same
    cases same
    exact other rfl
  intro now r
  rcases r with e | (_ | _)
  · exact unpaced_fail e
  · exact last
  · exact fun _ => last

theorem unpaced_deadLetter (reason : String) (o : Outcome) :
    Unpaced (deadLetter worker job reason o) := by
  intro r
  cases r with
  | error e => exact unpaced_fail e
  | ok => exact fun _ => unpaced_publish o nofun

theorem unpaced_returnPassage {p : Passage} {k : Attempt Disposition} (h : Unpaced k) :
    Unpaced (returnPassage route p k) := by
  unfold returnPassage
  split_ifs
  · exact fun _ => h
  · exact h

theorem unpaced_returnAll {k : Attempt Disposition} (h : Unpaced k) :
    Unpaced (returnAll held k) := fun _ => unpaced_returnPassage h

theorem unpaced_handBack {k : Attempt Disposition} (h : Unpaced k) : Unpaced (handBack held k) :=
  unpaced_returnPassage fun _ => h

theorem unpaced_onSuccess (o : Outcome) : Unpaced (onSuccess worker job route o) := by
  intro _ _ r
  rcases r with e | _
  · exact unpaced_fail e
  · intro r
    rcases r with (_ | _) | _
    · exact unpaced_publish o nofun
    · exact unpaced_fail .crash
    · exact unpaced_publish o nofun

theorem unpaced_onEnvironmentFailure (o : Outcome) :
    Unpaced (onEnvironmentFailure cfg worker job route o) := by
  intro _ _ r
  rcases r with e | _
  · exact unpaced_fail e
  · show Unpaced (ite _ _ _)
    split_ifs
    · intro now unit r
      rcases r with e | _
      · exact unpaced_fail e
      · exact fun _ => nofun
    · exact unpaced_deadLetter _ o

theorem unpaced_onFinalFailure (p : Passage) (o : Outcome) :
    Unpaced (onFinalFailure worker job route p o) := by
  refine unpaced_returnPassage fun r => ?_
  rcases r with e | _
  · exact unpaced_fail e
  · intro r
    rcases r with e | _
    · exact unpaced_fail e
    · exact unpaced_publish o nofun

theorem unpaced_settle (p : Passage) (o : Outcome) :
    Unpaced (settle cfg worker job route p o) := by
  unfold settle
  split_ifs
  · exact unpaced_onSuccess o
  · exact unpaced_onEnvironmentFailure o
  · exact unpaced_onFinalFailure p o

theorem unpaced_carryOut : Unpaced (carryOut cfg worker job held) := by
  intro content
  dsimp only
  cases content.apply job.intent with
  | none => exact unpaced_returnAll (unpaced_fail .crash)
  | some intent =>
    intro r
    rcases r with (_ | _) | _
    · refine unpaced_handBack fun r => ?_
      rcases r with e | _
      · exact unpaced_fail e
      · exact nofun
    · exact unpaced_returnAll (unpaced_fail .crash)
    · intro sent _ reply r
      rcases r with (_ | _) | _
      · exact unpaced_settle _ _
      · exact unpaced_returnPassage (unpaced_fail .crash)
      · exact unpaced_settle _ _

theorem unpaced_beginAttempt : Unpaced (beginAttempt cfg worker job held) := by
  intro r
  rcases r with e | (_ | ⟨_ | _, since⟩ | record)
  · exact unpaced_returnAll (unpaced_fail e)
  · exact unpaced_carryOut
  · exact unpaced_handBack (unpaced_defer .inProgress nofun _)
  · exact unpaced_handBack (unpaced_deadLetter _ _)
  · refine unpaced_handBack fun r => ?_
    rcases r with e | _
    · exact unpaced_fail e
    · exact unpaced_publish _ nofun

/-- All that is done with a job that pacing holds back: the clock is read, the route asked, the job
handed back until the route is ready, and that told. -/
def heldBack (worker : String) (job : Job) (now : Timestamp) (wait : Span) : List Deed :=
  [⟨.readClock, now⟩, ⟨.pacingWait job.routeKey (lag job now) now, wait⟩,
    ⟨.releaseJob job.id worker (now.add wait) Deferral.pacing.text true, .ok ()⟩,
    ⟨.emit (.deferred job.id .pacing (now.add wait)), ()⟩]

theorem heldBack_inj {now now' : Timestamp} {wait wait' : Span}
    (h : heldBack worker job now wait = heldBack worker job now' wait') :
    now = now' ∧ wait = wait' := by
  cases h
  exact ⟨rfl, rfl⟩

/-- Only the gate that comes first defers a job by pacing, and only for a wait that is due. -/
theorem process_paced_iff {past : List Deed} :
    (process cfg worker job).Goes past (.ok (.deferred .pacing)) ↔
      ∃ now wait, Span.zero < wait ∧ past = heldBack worker job now wait := by
  constructor
  · rintro (_ | ⟨now, _ | ⟨wait, goes⟩⟩)
    dsimp only at goes
    split_ifs at goes with due
    · refine ⟨now, wait, due, ?_⟩
      obtain _ | ⟨r, goes⟩ := goes
      cases r with
      | error e => exact absurd rfl ((unpaced_fail e).result goes)
      | ok =>
        obtain _ | ⟨_, _ | _⟩ := goes
        rfl
    · refine absurd rfl (Unpaced.result ?_ goes)
      intro passage
      dsimp only
      split_ifs
      · exact unpaced_defer .circuitOpen nofun _
      · intro room
        dsimp only
        split_ifs
        · exact unpaced_returnPassage (unpaced_defer .rateLimited nofun _)
        · exact unpaced_beginAttempt
  · rintro ⟨now, wait, due, rfl⟩
    refine .step (a := .readClock) now ?_
    refine .step (a := .pacingWait job.routeKey (lag job now) now) wait ?_
    rw [if_pos due]
    refine .step (a := .releaseJob _ _ _ _ _) (.ok ()) ?_
    exact .step (a := .emit _) () (.done _)

/-- The route is asked with the pacing as it stands in `p`. -/
def PacedBy (c : PacingConfig ℚ) (p : Pacing ℚ) (past : List Deed) : Prop :=
  ∀ route lag now wait, (⟨.pacingWait route lag now, wait⟩ : Deed) ∈ past →
    wait = Pacing.wait c route lag now p

theorem PacedBy.wait_eq {c : PacingConfig ℚ} {p : Pacing ℚ} {now : Timestamp} {wait : Span}
    (paced : PacedBy c p (heldBack worker job now wait)) :
    wait = Pacing.wait c job.routeKey (lag job now) now p :=
  paced _ _ _ _ (List.mem_cons_of_mem _ List.mem_cons_self)

theorem pacedBy_heldBack {c : PacingConfig ℚ} {p : Pacing ℚ} {now : Timestamp} {wait : Span}
    (worker : String) (answer : Pacing.wait c job.routeKey (lag job now) now p = wait) :
    PacedBy c p (heldBack worker job now wait) := by
  rintro route lag t w mem
  simp only [heldBack, List.mem_cons, List.not_mem_nil, or_false] at mem
  rcases mem with same | same | same | same <;> cases same
  exact answer.symm

/-- All readings of the clock are `t` or later. -/
def ReadFrom (t : Timestamp) (past : List Deed) : Prop :=
  ∀ now, (⟨.readClock, now⟩ : Deed) ∈ past → t ≤ now

/-- With the pacing as it stands in `p`, the job is not held back by it from `t` on. -/
structure Passes (c : PacingConfig ℚ) (p : Pacing ℚ) (job : Job) (t : Timestamp) : Prop where
  free : ∀ now, t ≤ now → Pacing.wait c job.routeKey (lag job now) now p = .zero
  through : ∀ cfg worker past, PacedBy c p past → ReadFrom t past →
    ¬ (process cfg worker job).Goes past (.ok (.deferred .pacing))

theorem Passes.of_free {c : PacingConfig ℚ} {p : Pacing ℚ} {t : Timestamp}
    (free : ∀ now, t ≤ now → Pacing.wait c job.routeKey (lag job now) now p = .zero) :
    Passes c p job t := by
  refine ⟨free, fun cfg worker past paced read goes => ?_⟩
  obtain ⟨now, wait, due, rfl⟩ := process_paced_iff.1 goes
  rw [paced.wait_eq, free now (read now List.mem_cons_self)] at due
  exact absurd due (Int.lt_irrefl _)

/-- A route that a job had to wait for is ready for it when the job is due again. -/
theorem passes_again {c : PacingConfig ℚ} (least : 0 ≤ c.lagPenaltyPerSec)
    (most : c.lagPenaltyPerSec ≤ 1) {p p' : Pacing ℚ} {now : Timestamp}
    (due : Span.zero < Pacing.wait c job.routeKey (lag job now) now p)
    (noSlower : Pacing.NoSlower job.routeKey p p') {again : Job}
    (route : again.routeKey = job.routeKey)
    (available : again.availableAt =
      now.add (Pacing.wait c job.routeKey (lag job now) now p)) :
    Passes c p' again again.availableAt := by
  obtain ⟨last, sent, slow, ready⟩ := Pacing.waiting due
  have shorter := noSlower.delay
  rw [max_eq_left slow.le] at shorter
  refine .of_free fun t later => ?_
  rw [route]
  refine Pacing.wait_of_ready (noSlower.sent.trans sent) ?_
  exact Pacing.ready_le least most shorter (lag job now) (ready.trans available.symm) later

/-- A job that pacing has held back until the route is ready is not held back by it again: not when
it is due, nor at any time afterwards, whatever is done meanwhile, as long as that records no send
and no failure on the route, and no success where the step is negative. -/
theorem held_back_once {c : PacingConfig ℚ} (least : 0 ≤ c.lagPenaltyPerSec)
    (most : c.lagPenaltyPerSec ≤ 1) {p : Pacing ℚ} {past : List Deed} (paced : PacedBy c p past)
    (deferred : (process cfg worker job).Goes past (.ok (.deferred .pacing))) :
    ∃ now wait, past = heldBack worker job now wait ∧
      ∀ between : List Action, (∀ a ∈ between, Pacing.Spares c job.routeKey a) → ∀ again : Job,
        again.routeKey = job.routeKey → again.availableAt = now.add wait →
        Passes c (between.foldl (Pacing.heed c) p) again (now.add wait) := by
  obtain ⟨now, wait, due, rfl⟩ := process_paced_iff.1 deferred
  have answer := paced.wait_eq
  subst answer
  refine ⟨now, _, rfl, fun between spared again route available => ?_⟩
  rw [← available]
  exact passes_again least most due (Pacing.noSlower_foldl spared) route available

/-- A route with a delay of a second that has just been sent on. -/
def justSent : Pacing ℚ := Pacing.update "x:account" (fun _ => ⟨1, some .epoch⟩) Table.empty

/-- A job for it. -/
def waitingJob : Job := .create ⟨.ofNat 1⟩ ⟨"i-1", "x", "account", "post", .null, none⟩ .epoch

theorem held_back_once_justSent :
    let c : PacingConfig ℚ := ⟨1, 1 / 2, 10, 1 / 2, []⟩
    let now := Timestamp.epoch.add (.ofMillis 500)
    let past := heldBack "w-1" waitingJob now (.ofMillis 750)
    PacedBy c justSent past ∧
      (process Config.usual "w-1" waitingJob).Goes past (.ok (.deferred .pacing)) ∧
      Passes c (Pacing.heed c justSent (.pacingSend "y:account" now))
        { waitingJob with availableAt := now.add (.ofMillis 750) } (now.add (.ofMillis 750)) := by
  intro c now past
  have wait : Pacing.wait c waitingJob.routeKey (lag waitingJob now) now justSent =
      .ofMillis 750 := by decide +kernel
  have paced : PacedBy c justSent past := pacedBy_heldBack "w-1" wait
  have deferred : (process Config.usual "w-1" waitingJob).Goes past (.ok (.deferred .pacing)) :=
    process_paced_iff.2 ⟨now, _, by decide +kernel, rfl⟩
  obtain ⟨now', wait', same, passes⟩ :=
    held_back_once (c := c) (by norm_num [c]) (by norm_num [c]) paced deferred
  obtain ⟨rfl, rfl⟩ := heldBack_inj same
  have spared : ∀ a ∈ [Action.pacingSend "y:account" now],
      Pacing.Spares c waitingJob.routeKey a := by
    intro a mem
    rw [List.mem_singleton.1 mem]
    exact (by decide : "y:account" ≠ waitingJob.routeKey)
  exact ⟨paced, deferred, passes _ spared _ rfl rfl⟩

/-- Settings that a success lengthens the delay with. -/
def contrary : PacingConfig ℚ := ⟨-1, 1 / 2, 10, 0, []⟩

/-- With a negative step a success in between holds the job back once more. -/
theorem held_back_twice :
    let due := Timestamp.epoch.add (.ofSeconds 1)
    let again := { waitingJob with availableAt := due }
    let after := Pacing.heed contrary justSent (.pacingSuccess waitingJob.routeKey)
    (0 ≤ contrary.lagPenaltyPerSec ∧ contrary.lagPenaltyPerSec ≤ 1 ∧ 0 ≤ contrary.maxDelaySecs) ∧
      (PacedBy contrary justSent (heldBack "w-1" waitingJob .epoch (.ofSeconds 1)) ∧
        (process Config.usual "w-1" waitingJob).Goes
          (heldBack "w-1" waitingJob .epoch (.ofSeconds 1)) (.ok (.deferred .pacing))) ∧
      Pacing.wait contrary again.routeKey (lag again due) due after = .ofSeconds 1 ∧
      PacedBy contrary after (heldBack "w-1" again due (.ofSeconds 1)) ∧
        (process Config.usual "w-1" again).Goes (heldBack "w-1" again due (.ofSeconds 1))
          (.ok (.deferred .pacing)) := by
  intro due again after
  have before : Pacing.wait contrary waitingJob.routeKey (lag waitingJob .epoch) .epoch justSent =
      .ofSeconds 1 := by decide +kernel
  have still : Pacing.wait contrary again.routeKey (lag again due) due after = .ofSeconds 1 := by
    decide +kernel
  refine ⟨⟨le_rfl, zero_le_one, by norm_num [contrary]⟩, ⟨?_, ?_⟩, still, ?_, ?_⟩
  · exact pacedBy_heldBack "w-1" before
  · exact process_paced_iff.2 ⟨_, _, by decide, rfl⟩
  · exact pacedBy_heldBack "w-1" still
  · exact process_paced_iff.2 ⟨_, _, by decide, rfl⟩

end Worker

end Courier
