import Mathlib.Algebra.GroupWithZero.Nat
import Mathlib.Data.Finset.Card
import Courier.Proofs.Breaker.History

/-! What shuts a half-open circuit. It takes a set number of successes since it became half-open,
and it counts every one that comes in on the route. Those of callers that were let through before
it tripped count like those of the trials, so it is shut by its trials alone exactly if nobody else
reports a success in the meantime. -/

namespace Courier

namespace Circuit

variable {cfg : CircuitConfig} {c : Circuit} {now : Timestamp}

/-- What a call makes of a half-open circuit. A success is counted, and shuts the circuit once there
are enough; nothing else shuts it or touches the count. -/
theorem run_of_halfOpen (cfg : CircuitConfig) (now : Timestamp) (hs : c.state = .halfOpen)
    (call : Call) :
    if call = .success then
      if cfg.halfOpenSuccessThreshold ≤ successor32 c.trialSuccesses then
        (call.run cfg now c).2.state = .shut
      else (call.run cfg now c).2.state = .halfOpen ∧
        (call.run cfg now c).2.trialSuccesses = successor32 c.trialSuccesses
    else (call.run cfg now c).2.state ≠ .shut ∧
      ((call.run cfg now c).2.state = .halfOpen →
        (call.run cfg now c).2.trialSuccesses = c.trialSuccesses) := by
  cases call with
  | request =>
    refine ⟨request_not_shut (by rw [hs]; nofun), fun _ => ?_⟩
    simp only [Call.run, request, hs]
    split_ifs <;> rfl
  | success =>
    simp only [if_true, Call.run, success, hs]
    split_ifs with enough
    · rfl
    · exact ⟨rfl, rfl⟩
  | failure => simp [Call.run, failure, hs, enter]
  | cancelTrial => simp [Call.run, cancelTrial, hs]

/-- A circuit becomes half-open by a request only, and starts to count anew. -/
theorem trial_of_halfOpen {call : Call} (hs : c.state ≠ .halfOpen)
    (hs' : (call.run cfg now c).2.state = .halfOpen) :
    call = .request ∧ (c.request cfg now).1 = .onTrial ∧
      (call.run cfg now c).2.trialSuccesses = 0 := by
  cases hc : c.state with
  | halfOpen => exact absurd hc hs
  | shut =>
    exfalso
    cases call with
    | request =>
      rw [Call.run, request_of_shut hc] at hs'
      exact hs hs'
    | success =>
      rw [Call.run, success_of_shut hc] at hs'
      exact hs hs'
    | failure =>
      rw [Call.run, failure_of_shut hc] at hs'
      split_ifs at hs'
      exact hs hs'
    | cancelTrial =>
      rw [Call.run, cancelTrial_of_shut hc] at hs'
      exact hs hs'
  | tripped =>
    by_cases hr : call = .request
    · subst hr
      refine ⟨rfl, ?_⟩
      simp only [Call.run, request, hc] at hs' ⊢
      split_ifs at hs' ⊢ with cooled
      · exact ⟨rfl, rfl⟩
      · exact absurd hs' hs
    · rw [report_of_tripped hc hr] at hs'
      exact absurd hs' hs

end Circuit

namespace Breaker

variable {cfg : CircuitConfig} {route : String}

namespace Entry

variable (cfg) (route) (e : Entry)

/-- The circuit of `route` becomes half-open. -/
def HalfOpens : Prop :=
  e.before.state route ≠ .halfOpen ∧ (e.after cfg).state route = .halfOpen

/-- It moves from half-open to shut. -/
def Closes : Prop :=
  e.before.state route = .halfOpen ∧ (e.after cfg).state route = .shut

/-- The caller reports a success. -/
def Succeeds : Prop := e.route = route ∧ e.call = .success

/-- The caller is let through on trial. -/
def Tries : Prop := e.Asks route ∧ e.answer cfg = some .onTrial

instance : Decidable (e.HalfOpens cfg route) := inferInstanceAs (Decidable (_ ∧ _))

instance : Decidable (e.Closes cfg route) := inferInstanceAs (Decidable (_ ∧ _))

instance : Decidable (e.Succeeds route) := inferInstanceAs (Decidable (_ ∧ _))

instance : Decidable (e.Tries cfg route) := inferInstanceAs (Decidable (_ ∧ _))

end Entry

/-- The callers that reported a success on `route`, one for each report. -/
def successes (route : String) (h : List Entry) : List Nat :=
  (h.filter fun e => e.Succeeds route).map (·.caller)

/-- The callers that were on trial on `route`. -/
def tried (cfg : CircuitConfig) (route : String) (h : List Entry) : Finset Nat :=
  ((h.filter fun e => e.Tries cfg route).map (·.caller)).toFinset

/-- The callers that reported a success on `route`. -/
def succeeded (route : String) (h : List Entry) : Finset Nat := (successes route h).toFinset

/-- In the history `past` the circuit of `route` last became half-open with the entry `e₀`. -/
def LastHalfOpened (cfg : CircuitConfig) (route : String) (past pre : List Entry) (e₀ : Entry)
    (mid : List Entry) : Prop :=
  past = pre ++ e₀ :: mid ∧ e₀.HalfOpens cfg route ∧ ∀ d ∈ mid, ¬ d.HalfOpens cfg route

theorem mem_tried {h : List Entry} {caller : Nat} :
    caller ∈ tried cfg route h ↔ ∃ e ∈ h, e.caller = caller ∧ e.Tries cfg route := by
  simp [tried, and_left_comm, and_comm]

theorem mem_succeeded {h : List Entry} {caller : Nat} :
    caller ∈ succeeded route h ↔ ∃ e ∈ h, e.caller = caller ∧ e.Succeeds route := by
  simp [succeeded, successes, and_left_comm, and_comm]

theorem successes_snoc (h : List Entry) (e : Entry) : successes route (h ++ [e]) =
    successes route h ++ if e.Succeeds route then [e.caller] else [] := by
  rw [successes, List.filter_append, List.map_append, successes]
  split_ifs with hs
  · rw [List.filter_cons_of_pos (by simpa using hs)]
    rfl
  · rw [List.filter_cons_of_neg (by simpa using hs)]
    rfl

theorem successes_append (h h' : List Entry) :
    successes route (h ++ h') = successes route h ++ successes route h' := by
  rw [successes, List.filter_append, List.map_append, successes, successes]

variable {b : Breaker} {h pre mid : List Entry} {e₀ e : Entry}

/-- The caller with which a circuit becomes half-open is on trial. -/
theorem Entry.HalfOpens.tries (opens : e.HalfOpens cfg route) :
    e.Tries cfg route ∧ ((e.after cfg).circuit route).trialSuccesses = 0 := by
  obtain ⟨hs, hs'⟩ := opens
  by_cases hr : route = e.route
  · rw [Breaker.state, Entry.circuit_after, if_pos hr] at hs'
    obtain ⟨hc, trial, none_⟩ := Circuit.trial_of_halfOpen hs hs'
    have asks : e.Asks route := ⟨hr.symm, hc⟩
    refine ⟨⟨asks, by rw [asks.answer_eq, trial]⟩, ?_⟩
    rwa [Entry.circuit_after, if_pos hr]
  · rw [Breaker.state, Entry.circuit_after, if_neg hr] at hs'
    exact absurd hs' hs

/-- What the entry of a half-open circuit leaves it in, if no success of the route shuts it. -/
theorem Entry.halfOpen_after (hs : e.before.state route = .halfOpen)
    (hs' : (e.after cfg).state route = .halfOpen) :
    ((e.after cfg).circuit route).trialSuccesses =
      (if e.Succeeds route then successor32 (e.before.circuit route).trialSuccesses
       else (e.before.circuit route).trialSuccesses) ∧
    (e.Succeeds route → successor32 (e.before.circuit route).trialSuccesses <
      cfg.halfOpenSuccessThreshold) := by
  rw [Breaker.state] at hs'
  rw [Entry.circuit_after] at hs' ⊢
  by_cases hr : route = e.route
  · rw [if_pos hr] at hs' ⊢
    have moved := Circuit.run_of_halfOpen cfg e.now hs e.call
    split_ifs at moved with hc enough
    · rw [moved] at hs'
      cases hs'
    · rw [if_pos (show e.Succeeds route from ⟨hr.symm, hc⟩)]
      exact ⟨moved.2, fun _ => Nat.lt_of_not_le enough⟩
    · rw [if_neg fun succeeds : e.Succeeds route => hc succeeds.2]
      exact ⟨moved.2 hs', fun succeeds => absurd succeeds.2 hc⟩
  · rw [if_neg hr, if_neg fun succeeds : e.Succeeds route => hr succeeds.1.symm]
    exact ⟨rfl, fun succeeds => absurd succeeds.1.symm hr⟩

/-- A half-open circuit is shut by a success that makes the count complete. -/
theorem Entry.Closes.succeeds (closes : e.Closes cfg route) : e.Succeeds route ∧
    cfg.halfOpenSuccessThreshold ≤ successor32 (e.before.circuit route).trialSuccesses := by
  obtain ⟨hs, hs'⟩ := closes
  rw [Breaker.state, Entry.circuit_after] at hs'
  by_cases hr : route = e.route
  · rw [if_pos hr] at hs'
    have moved := Circuit.run_of_halfOpen cfg e.now hs e.call
    split_ifs at moved with hc enough
    · exact ⟨⟨hr.symm, hc⟩, enough⟩
    · rw [moved.1] at hs'
      cases hs'
    · exact absurd hs' moved.1
  · rw [if_neg hr] at hs'
    exact absurd (hs.symm.trans hs') (by rintro ⟨⟩)

/-- Who passes on a circuit that is not shut is on trial. -/
theorem Entry.Passes.tries (passes : e.Passes cfg route) (hs : e.before.state route ≠ .shut) :
    e.Tries cfg route := by
  obtain ⟨asks, admitted⟩ := passes
  refine ⟨asks, ?_⟩
  rw [asks.answer_eq] at admitted ⊢
  cases hp : ((e.before.circuit route).request cfg e.now).1 with
  | denied => exact absurd (congrArg some hp) admitted
  | granted => exact absurd (Circuit.shut_of_granted hp) hs
  | onTrial => rfl

/-- A half-open circuit became half-open at some point. -/
theorem Run.exists_halfOpened (run : Run cfg h b) (hs : b.state route = .halfOpen) :
    ∃ pre e₀ mid, LastHalfOpened cfg route h pre e₀ mid := by
  induction run with
  | nil => cases hs
  | @snoc h b run a fits ih =>
    let e : Entry := ⟨a, b⟩
    by_cases hb : b.state route = .halfOpen
    · obtain ⟨pre, e₀, mid, rfl, opens, since⟩ := ih hb
      refine ⟨pre, e₀, mid ++ [e], by simp [e], opens, fun d hd => ?_⟩
      rcases List.mem_append.1 hd with hd | hd
      · exact since d hd
      · rw [List.mem_singleton.1 hd]
        exact fun again => again.1 hb
    · exact ⟨h, e, [], rfl, ⟨hb, hs⟩, by simp⟩

/-- Since it last became half-open the circuit has been half-open all the time, and has counted the
successes on its route. The count stays below the number that shuts the circuit. -/
theorem LastHalfOpened.tally (since : LastHalfOpened cfg route h pre e₀ mid) (run : Run cfg h b)
    (hs : b.state route = .halfOpen) (hn : 1 ≤ cfg.halfOpenSuccessThreshold) :
    (∀ d ∈ mid, d.before.state route = .halfOpen) ∧
      (b.circuit route).trialSuccesses < cfg.halfOpenSuccessThreshold ∧
      (cfg.halfOpenSuccessThreshold < 2 ^ 32 →
        (b.circuit route).trialSuccesses = (successes route mid).length) := by
  obtain ⟨rfl, opens, since⟩ := since
  induction mid using List.reverseRecOn generalizing b with
  | nil =>
    obtain ⟨-, -, rfl⟩ := run.of_snoc
    rw [opens.tries.2]
    exact ⟨by simp, hn, fun _ => rfl⟩
  | append_singleton mid d ih =>
    rw [← List.cons_append, ← List.append_assoc] at run
    obtain ⟨before, -, rfl⟩ := run.of_snoc
    have hb : d.before.state route = .halfOpen :=
      by_contra fun hb => since d (by simp) ⟨hb, hs⟩
    obtain ⟨always, below, counted⟩ := ih hb before fun e he => since e (by simp [he])
    obtain ⟨count, room⟩ := Entry.halfOpen_after hb hs
    refine ⟨fun e he => ?_, ?_, fun small => ?_⟩
    · rcases List.mem_append.1 he with he | he
      · exact always e he
      · rwa [List.mem_singleton.1 he]
    · rw [count]
      split_ifs with succeeds
      · exact room succeeds
      · exact below
    · rw [count, successes_snoc, List.length_append, ← counted small]
      split_ifs with succeeds
      · exact Nat.mod_eq_of_lt (Nat.lt_of_le_of_lt below small)
      · rfl

/-- Nobody reports twice. -/
theorem Run.successes_nodup (run : Run cfg h b) : (successes route h).Nodup := by
  induction h using List.reverseRecOn generalizing b with
  | nil => exact List.nodup_nil
  | append_singleton h e ih =>
    obtain ⟨before, fits, -⟩ := run.of_snoc
    rw [successes_snoc]
    split_ifs with succeeds
    · refine List.nodup_append.2 ⟨ih before, List.nodup_singleton _, fun caller hc _ he => ?_⟩
      rw [List.mem_singleton.1 he]
      rintro rfl
      obtain ⟨d, hd, hcaller, earlier⟩ := mem_succeeded.1 (List.mem_toFinset.2 hc)
      have out := fits.isOut (by rw [succeeds.2]; nofun)
      refine out.2 d hd hcaller ⟨earlier.1.trans succeeds.1.symm, ?_⟩
      rw [earlier.2]
      nofun
    · simpa using ih before

/-- If none of those let through before has still to report, only callers on trial report. -/
theorem Run.succeeded_subset_tried {since : List Entry} (run : Run cfg (pre ++ since) b)
    (trials : ∀ d ∈ since, d.Passes cfg route → d.Tries cfg route)
    (alone : ∀ caller, ¬ IsOut cfg pre caller route) :
    succeeded route since ⊆ tried cfg route since := by
  intro caller hc
  obtain ⟨d, hd, rfl, succeeds⟩ := mem_succeeded.1 hc
  obtain ⟨p, q, rfl⟩ := List.append_of_mem hd
  have out : IsOut cfg (pre ++ p) d.caller route := by
    have split : Run cfg (pre ++ p ++ [d] ++ q) b := by simpa using run
    obtain ⟨b', run'⟩ := split.of_append q
    rw [← succeeds.1]
    exact run'.of_snoc.2.1.isOut (by rw [succeeds.2]; nofun)
  obtain ⟨⟨a, ha, hcaller, passes⟩, unreported⟩ := out
  rcases List.mem_append.1 ha with ha | ha
  · exact absurd ⟨⟨a, ha, hcaller, passes⟩, fun d' hd' => unreported d' (by simp [hd'])⟩
      (alone d.caller)
  · have since : a ∈ p ++ d :: q := List.mem_append_left _ ha
    exact mem_tried.2 ⟨a, since, hcaller, trials a since passes⟩

/-- When a success shuts the circuit, as many callers have reported one since it became half-open as
the threshold says. -/
theorem LastHalfOpened.card_succeeded {past : List Entry}
    (halfOpened : LastHalfOpened cfg route past pre e₀ mid) (run : Run cfg (past ++ [e]) b)
    (closes : e.Closes cfg route) (hn : 1 ≤ cfg.halfOpenSuccessThreshold) :
    (succeeded route (e₀ :: (mid ++ [e]))).card = cfg.halfOpenSuccessThreshold := by
  obtain ⟨before, -, -⟩ := run.of_snoc
  obtain ⟨-, below, counted⟩ := halfOpened.tally before closes.1 hn
  obtain ⟨rfl, opens, -⟩ := halfOpened
  obtain ⟨succeeds, enough⟩ := closes.succeeds
  have nodup : (successes route (e₀ :: (mid ++ [e]))).Nodup := by
    have all : (successes route (pre ++ e₀ :: mid ++ [e])).Nodup := run.successes_nodup
    rw [List.append_assoc, List.cons_append, successes_append] at all
    exact (List.nodup_append.1 all).2.1
  have small : cfg.halfOpenSuccessThreshold < 2 ^ 32 :=
    Nat.lt_of_le_of_lt enough (Nat.mod_lt _ (by decide))
  -- the entry that makes it half-open asks, and reports nothing
  have quiet : ¬ e₀.Succeeds route := fun succeeds => by
    have := opens.tries.1.1.2.symm.trans succeeds.2
    cases this
  have count :
      (successes route (e₀ :: (mid ++ [e]))).length = (successes route mid).length + 1 := by
    rw [show e₀ :: (mid ++ [e]) = [] ++ [e₀] ++ (mid ++ [e]) by simp, successes_append,
      successes_snoc, successes_snoc, if_neg quiet, if_pos succeeds]
    simp [successes]
  have next : successor32 (e.before.circuit route).trialSuccesses =
      (e.before.circuit route).trialSuccesses + 1 :=
    Nat.mod_eq_of_lt (Nat.lt_of_le_of_lt below small)
  rw [next] at enough
  rw [succeeded, List.toFinset_card_of_nodup nodup, count, ← counted small]
  omega

/-- Whoever passes since the circuit became half-open, until it is shut, is on trial. -/
theorem LastHalfOpened.tries {past : List Entry}
    (halfOpened : LastHalfOpened cfg route past pre e₀ mid) (run : Run cfg past e.before)
    (closes : e.Closes cfg route) (hn : 1 ≤ cfg.halfOpenSuccessThreshold) :
    ∀ d ∈ e₀ :: (mid ++ [e]), d.Passes cfg route → d.Tries cfg route := by
  obtain ⟨always, -, -⟩ := halfOpened.tally run closes.1 hn
  intro d hd passes
  rcases List.mem_cons.1 hd with rfl | hd
  · exact halfOpened.2.1.tries.1
  · have halfOpen : d.before.state route = .halfOpen := by
      rcases List.mem_append.1 hd with hd | hd
      · exact always d hd
      · rw [List.mem_singleton.1 hd]
        exact closes.1
    refine passes.tries ?_
    rw [halfOpen]
    decide

/-- When a route moves from half-open to shut, as many callers as the threshold says have reported
a success on it since it last became half-open. As many of them were let through on trial since
then exactly if all were, and all were if nobody let through before had still to report. -/
theorem Run.closed_by_trials_iff {past post : List Entry} (run : Run cfg (past ++ e :: post) b)
    (closes : e.Closes cfg route) (hn : 1 ≤ cfg.halfOpenSuccessThreshold) :
    (∃ pre e₀ mid, LastHalfOpened cfg route past pre e₀ mid) ∧
    ∀ pre e₀ mid, LastHalfOpened cfg route past pre e₀ mid →
      let since := e₀ :: (mid ++ [e])
      (succeeded route since).card = cfg.halfOpenSuccessThreshold ∧
      (cfg.halfOpenSuccessThreshold ≤ (tried cfg route since ∩ succeeded route since).card ↔
        succeeded route since ⊆ tried cfg route since) ∧
      ((∀ caller, ¬ IsOut cfg pre caller route) →
        cfg.halfOpenSuccessThreshold ≤ (tried cfg route since ∩ succeeded route since).card) := by
  have split : Run cfg (past ++ [e] ++ post) b := by simpa using run
  obtain ⟨b', run'⟩ := split.of_append post
  obtain ⟨before, -, -⟩ := run'.of_snoc
  refine ⟨before.exists_halfOpened closes.1, fun pre e₀ mid halfOpened => ?_⟩
  have card := halfOpened.card_succeeded run' closes hn
  intro since
  refine ⟨card, ?_, fun alone => ?_⟩
  · rw [← card, Finset.inter_comm]
    constructor
    · intro enough
      rw [← Finset.eq_of_subset_of_card_le Finset.inter_subset_left enough]
      exact Finset.inter_subset_right
    · exact fun all => (Finset.card_le_card (Finset.subset_inter subset_rfl all))
  · have trials := halfOpened.tries before closes hn
    have run' : Run cfg (pre ++ since) b' := by simpa [since, halfOpened.1] using run'
    rw [Finset.inter_eq_right.2 (run'.succeeded_subset_tried trials alone), card]

/-- A caller fails and the circuit trips. Later two trials in a row succeed and shut it. -/
theorem closed_by_trials_iff_twoTrials :
    let past := [sampleAct 0 1 .request, sampleAct 0 1 .failure]
    let trial : Entry := ⟨sampleAct 60 2 .request, afterAll touchy empty past⟩
    let acts := [sampleAct 61 2 .success, sampleAct 70 3 .request]
    let closing : Entry := ⟨sampleAct 71 3 .success, afterAll touchy (trial.after touchy) acts⟩
    let since := trial :: (entries touchy (trial.after touchy) acts ++ [closing])
    closing.Closes touchy "r" ∧ 2 ≤ (tried touchy "r" since ∩ succeeded "r" since).card := by
  intro past trial acts closing since
  have run : Run touchy ((entries touchy empty past ++
      trial :: entries touchy (trial.after touchy) acts) ++ closing :: []) _ :=
    Run.nil.extend (past ++ trial.toAct :: acts ++ [closing.toAct]) (by decide +kernel)
  have closes : closing.Closes touchy "r" := by decide +kernel
  obtain ⟨-, enough, -⟩ := (run.closed_by_trials_iff closes (by decide)).2 _ trial _
    ⟨rfl, by decide +kernel, by decide +kernel⟩
  exact ⟨closes, enough.2 (by decide +kernel)⟩

/-- One success shuts a circuit again. -/
def hasty : CircuitConfig := { failureThreshold := 1, halfOpenSuccessThreshold := 1 }

/-- Two callers are let through, one of them fails and the circuit trips. Later a third is on trial,
when the first reports its success: the circuit shuts, and no trial has succeeded. -/
theorem exists_closed_without_trial : ∃ past e b, Run hasty (past ++ [e]) b ∧
    e.Closes hasty "r" ∧ ∃ pre e₀ mid, LastHalfOpened hasty "r" past pre e₀ mid ∧
      (tried hasty "r" (e₀ :: (mid ++ [e])) ∩ succeeded "r" (e₀ :: (mid ++ [e]))).card <
        hasty.halfOpenSuccessThreshold := by
  let past := [sampleAct 0 1 .request, sampleAct 0 2 .request, sampleAct 0 2 .failure]
  let trial : Entry := ⟨sampleAct 60 3 .request, afterAll hasty empty past⟩
  let closing : Entry := ⟨sampleAct 60 1 .success, trial.after hasty⟩
  have run : Run hasty ((entries hasty empty past ++ [trial]) ++ [closing]) _ :=
    Run.nil.extend (past ++ [trial.toAct, closing.toAct]) (by decide +kernel)
  exact ⟨_, closing, _, run, by decide +kernel, _, trial, [],
    ⟨rfl, by decide +kernel, by simp⟩, by decide +kernel⟩

end Breaker

end Courier
