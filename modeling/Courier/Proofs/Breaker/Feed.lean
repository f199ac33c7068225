import Mathlib.Data.List.DropRight
import Courier.Proofs.Breaker.Run

/-! What a breaker tells its observers. The changes of state of all routes share one list, which is
emptied when they are collected and loses its oldest change when it is full. Whatever is called on
the breaker, and whenever, the list is the end of what happened since the last collection, and what
happened on a route leads from shut to the state that the route is in. -/

namespace Courier

/-- The reason that is given for a change of state. There are four changes. -/
def CircuitState.reason? : CircuitState → CircuitState → Option String
  | .shut, .tripped => some "failure threshold reached"
  | .tripped, .halfOpen => some "cooldown elapsed"
  | .halfOpen, .tripped => some "trial failed"
  | .halfOpen, .shut => some "trials succeeded"
  | _, _ => none

theorem CircuitState.ne_of_reason? {s t : CircuitState} {reason : String}
    (h : s.reason? t = some reason) : t ≠ s := by
  rintro rfl
  cases t <;> cases h

namespace Circuit

def Call.move (cfg : CircuitConfig) (now : Timestamp) (c : Circuit) : Call → Move
  | request => (c.request cfg now).2
  | success => c.success cfg now
  | failure => c.failure cfg now
  | cancelTrial => .stay c.cancelTrial

/-- What a call can do to a circuit. It stays in its state, where only a half-open one takes note of
trials, or it changes its state, says why, and starts to count trials anew. -/
inductive Moves (cfg : CircuitConfig) (c : Circuit) : Move → Prop where
  | stays {c' : Circuit} : c.state ≠ .halfOpen → c'.state = c.state →
      c'.trialSuccesses = c.trialSuccesses → c'.trialStartedAt = c.trialStartedAt →
      Moves cfg c (.stay c')
  | tries {c' : Circuit} : c.state = .halfOpen → c'.state = .halfOpen →
      c'.trialSuccesses = c.trialSuccesses ∨ c'.trialSuccesses < cfg.halfOpenSuccessThreshold →
      Moves cfg c (.stay c')
  | changes {c' : Circuit} {reason : String} : c.state.reason? c'.state = some reason →
      c'.trialSuccesses = 0 → (c'.state ≠ .halfOpen → c'.trialStartedAt = none) →
      Moves cfg c ⟨c', some reason⟩

section

variable (cfg : CircuitConfig) (now : Timestamp) (c : Circuit)

theorem request_moves : c.Moves cfg (c.request cfg now).2 := by
  cases hc : c.state with
  | shut =>
    simp only [request, hc]
    exact .stays (by rw [hc]; nofun) rfl rfl rfl
  | tripped =>
    simp only [request, hc]
    split_ifs
    · exact .changes (by rw [hc]; rfl) rfl fun half => absurd rfl half
    · exact .stays (by rw [hc]; nofun) rfl rfl rfl
  | halfOpen =>
    simp only [request, hc]
    split_ifs
    · exact .tries hc hc (Or.inl rfl)
    · exact .tries hc rfl (Or.inl rfl)

theorem success_moves : c.Moves cfg (c.success cfg now) := by
  cases hc : c.state with
  | shut =>
    simp only [success, hc]
    exact .stays (by rw [hc]; nofun) hc.symm rfl rfl
  | tripped =>
    simp only [success, hc]
    exact .stays (by rw [hc]; nofun) rfl rfl rfl
  | halfOpen =>
    simp only [success, hc]
    split_ifs with enough
    · exact .changes (by rw [hc]; rfl) rfl fun _ => rfl
    · exact .tries hc rfl (Or.inr (Nat.lt_of_not_le enough))

theorem failure_moves : c.Moves cfg (c.failure cfg now) := by
  cases hc : c.state with
  | shut =>
    simp only [failure, hc]
    split_ifs
    · exact .changes (by rw [hc]; rfl) rfl fun _ => rfl
    · exact .stays (by rw [hc]; nofun) hc.symm rfl rfl
  | tripped =>
    simp only [failure, hc]
    exact .stays (by rw [hc]; nofun) rfl rfl rfl
  | halfOpen =>
    simp only [failure, hc]
    exact .changes (by rw [hc]; rfl) rfl fun _ => rfl

theorem cancelTrial_moves : c.Moves cfg (.stay c.cancelTrial) := by
  cases hc : c.state with
  | shut | tripped =>
    simp only [cancelTrial, hc]
    exact .stays (by rw [hc]; nofun) rfl rfl rfl
  | halfOpen =>
    simp only [cancelTrial, hc]
    exact .tries hc rfl (Or.inl rfl)

theorem Call.moves (call : Call) : c.Moves cfg (call.move cfg now c) := by
  cases call with
  | request => exact request_moves cfg now c
  | success => exact success_moves cfg now c
  | failure => exact failure_moves cfg now c
  | cancelTrial => exact cancelTrial_moves cfg c

end

/-- Trials are noted in a half-open circuit only, and are never enough to shut it. -/
def Counts (cfg : CircuitConfig) (c : Circuit) : Prop :=
  (c.state = .halfOpen → c.trialSuccesses < max 1 cfg.halfOpenSuccessThreshold) ∧
    (c.state ≠ .halfOpen → c.trialSuccesses = 0 ∧ c.trialStartedAt = none)

theorem Moves.counts {cfg : CircuitConfig} {c : Circuit} {m : Move} (moves : c.Moves cfg m)
    (counts : c.Counts cfg) : m.circuit.Counts cfg := by
  cases moves with
  | stays apart state count trial =>
    refine ⟨fun half => absurd (state.symm.trans half) apart, fun _ => ?_⟩
    exact ⟨count.trans (counts.2 apart).1, trial.trans (counts.2 apart).2⟩
  | tries half half' count =>
    refine ⟨fun _ => ?_, fun apart => absurd half' apart⟩
    rcases count with same | fewer
    · exact lt_of_eq_of_lt same (counts.1 half)
    · exact lt_of_lt_of_le fewer (le_max_right 1 _)
  | changes _ count trial =>
    refine ⟨fun _ => ?_, fun apart => ⟨count, trial apart⟩⟩
    exact lt_of_eq_of_lt count (lt_of_lt_of_le Nat.one_pos (le_max_left 1 _))

end Circuit

namespace Breaker

/-- A call on a route, or a collection of the changes. -/
inductive Use where
  | act (a : Act)
  | drain

/-- One use of a breaker that is in use, with the breaker that it found. -/
structure Moment where
  use : Use
  before : Breaker

namespace Moment

variable (cfg : CircuitConfig) (x : Moment)

def after : Breaker :=
  match x.use with
  | .act a => (a.run cfg x.before).2
  | .drain => x.before.drain.2

/-- The change of state that a call makes on its route. -/
def change? : Option CircuitEvent :=
  match x.use with
  | .act a =>
    let source := x.before.state a.route
    let target := (x.after cfg).state a.route
    if target = source then none
    else some ⟨a.route, source, target, a.now, (source.reason? target).getD ""⟩
  | .drain => none

def drains : Bool :=
  match x.use with
  | .act _ => false
  | .drain => true

/-- The changes that a collection hands out. -/
def collected : List CircuitEvent := if x.drains then x.before.drain.1 else []

end Moment

section

variable (cfg : CircuitConfig)

/-- The breaker after some uses. -/
def used (b : Breaker) (us : List Use) : Breaker :=
  us.foldl (fun b u => (⟨u, b⟩ : Moment).after cfg) b

/-- The moments of some uses. -/
def moments (b : Breaker) : List Use → List Moment
  | [] => []
  | u :: us => ⟨u, b⟩ :: moments ((⟨u, b⟩ : Moment).after cfg) us

/-- All changes of state that were made, whether or not they were seen. -/
def made (xs : List Moment) : List CircuitEvent := xs.filterMap (Moment.change? cfg)

/-- What came after the last collection. -/
def sinceDrain (xs : List Moment) : List Moment := xs.rtakeWhile fun x => !x.drains

/-- All changes that were handed out. -/
def collected (xs : List Moment) : List CircuitEvent := xs.flatMap Moment.collected

/-- One more change on the list. -/
def noted (e : CircuitEvent) (es : List CircuitEvent) : List CircuitEvent :=
  if es.length < mostPending then es ++ [e] else es.drop 1 ++ [e]

theorem report_pending (e : CircuitEvent) (b : Breaker) :
    (b.report e).pending = noted e b.pending := by
  unfold report noted
  split_ifs <;> rfl

/-- Noted one by one, the changes on the list are the last of all. -/
theorem noted_rtake (e : CircuitEvent) (es : List CircuitEvent) :
    noted e (es.rtake mostPending) = (es ++ [e]).rtake mostPending := by
  obtain ⟨n, hn⟩ : ∃ n, mostPending = n + 1 := ⟨1023, rfl⟩
  rw [noted, hn, List.rtake_concat_succ]
  have length : (es.rtake (n + 1)).length = min (n + 1) es.length := by
    rw [List.rtake, List.length_drop]
    omega
  split_ifs with room
  · rw [List.rtake, List.rtake, show es.length - (n + 1) = es.length - n by omega]
  · rw [List.rtake, List.rtake, List.drop_drop,
      show es.length - (n + 1) + 1 = es.length - n by omega]

theorem apply_pending (route : String) (now : Timestamp) (m : Circuit.Move) (b : Breaker) :
    (b.apply route now m).pending = match m.reason with
      | some reason => noted ⟨route, b.state route, m.circuit.state, now, reason⟩ b.pending
      | none => b.pending := by
  unfold apply
  cases m.reason with
  | none => rfl
  | some reason => exact report_pending _ _

theorem Act.run_pending (b : Breaker) (a : Act) : (a.run cfg b).2.pending =
    match (a.call.move cfg a.now (b.circuit a.route)).reason with
      | some reason => noted ⟨a.route, b.state a.route,
          (a.call.move cfg a.now (b.circuit a.route)).circuit.state, a.now, reason⟩ b.pending
      | none => b.pending := by
  obtain ⟨now, caller, route, call⟩ := a
  cases call with
  | request | success | failure => exact apply_pending route now _ b
  | cancelTrial => rfl

theorem Act.run_moves (b : Breaker) (a : Act) (route : String) : (a.run cfg b).2.circuit route =
    if route = a.route then (a.call.move cfg a.now (b.circuit a.route)).circuit
    else b.circuit route := by
  rw [(a.run_circuit cfg b).2 route]
  split_ifs with same
  · subst same
    cases a.call <;> rfl
  · rfl

theorem Moment.change?_act (a : Act) (b : Breaker) : (⟨.act a, b⟩ : Moment).change? cfg =
    if (a.run cfg b).2.state a.route = b.state a.route then none
    else some ⟨a.route, b.state a.route, (a.run cfg b).2.state a.route, a.now,
      ((b.state a.route).reason? ((a.run cfg b).2.state a.route)).getD ""⟩ := rfl

/-- A use of the breaker changes the state of one route, which is the one that is noted, or it
changes nothing. -/
theorem Moment.change_cases (x : Moment) :
    (x.change? cfg = none ∧
      (x.after cfg).pending = (if x.drains then [] else x.before.pending) ∧
      ∀ route, (x.after cfg).state route = x.before.state route) ∨
    ∃ e, x.change? cfg = some e ∧ x.drains = false ∧
      (x.after cfg).pending = noted e x.before.pending ∧
      x.before.state e.route = e.source ∧ e.source.reason? e.target = some e.reason ∧
      ∀ route, (x.after cfg).state route =
        if route = e.route then e.target else x.before.state route := by
  obtain ⟨use, b⟩ := x
  cases use with
  | drain => exact Or.inl ⟨rfl, rfl, fun _ => rfl⟩
  | act a =>
    have moves := a.call.moves cfg a.now (b.circuit a.route)
    have pending := a.run_pending cfg b
    have states : ∀ route, (a.run cfg b).2.state route = if route = a.route then
        (a.call.move cfg a.now (b.circuit a.route)).circuit.state else b.state route := by
      intro route
      rw [state, a.run_moves]
      split_ifs <;> rfl
    have target := (states a.route).trans (if_pos rfl)
    generalize a.call.move cfg a.now (b.circuit a.route) = m at moves pending states target
    have stays : m.reason = none → m.circuit.state = b.state a.route →
        (⟨.act a, b⟩ : Moment).change? cfg = none ∧ (a.run cfg b).2.pending = b.pending ∧
          ∀ route, (a.run cfg b).2.state route = b.state route := by
      intro quiet same
      refine ⟨if_pos (target.trans same), ?_, fun route => ?_⟩
      · rw [pending, quiet]
      · rw [states]
        split_ifs with hr
        · rw [hr, same]
        · rfl
    cases moves with
    | stays _ same => exact Or.inl (stays rfl same)
    | tries half half' => exact Or.inl (stays rfl (half'.trans half.symm))
    | @changes c' reason allowed =>
      have allowed : (b.state a.route).reason? c'.state = some reason := allowed
      have moved : c'.state ≠ b.state a.route := CircuitState.ne_of_reason? allowed
      refine Or.inr ⟨⟨a.route, b.state a.route, c'.state, a.now, reason⟩, ?_, rfl, pending, rfl,
        allowed, states⟩
      rw [change?_act, target, if_neg moved, allowed]
      rfl

end

/-- The changes lead from one state to another: each starts where the one before it ended. -/
def Leads : CircuitState → List CircuitEvent → CircuitState → Prop
  | s, [], t => s = t
  | s, e :: es, t => e.source = s ∧ s.reason? e.target = some e.reason ∧ Leads e.target es t

theorem Leads.concat {s t : CircuitState} {es : List CircuitEvent} {e : CircuitEvent}
    (leads : Leads s es t) (source : t = e.source)
    (allowed : e.source.reason? e.target = some e.reason) : Leads s (es ++ [e]) e.target := by
  induction es generalizing s with
  | nil =>
    obtain rfl : s = t := leads
    exact ⟨source.symm, source ▸ allowed, rfl⟩
  | cons d es ih => exact ⟨leads.1, leads.2.1, ih leads.2.2⟩

section

variable (cfg : CircuitConfig)

theorem used_concat (b : Breaker) (us : List Use) (u : Use) :
    used cfg b (us ++ [u]) = (⟨u, used cfg b us⟩ : Moment).after cfg := by
  rw [used, List.foldl_append]
  rfl

theorem moments_concat (b : Breaker) (us : List Use) (u : Use) :
    moments cfg b (us ++ [u]) = moments cfg b us ++ [⟨u, used cfg b us⟩] := by
  induction us generalizing b with
  | nil => rfl
  | cons v us ih => exact congrArg (List.cons _) (ih _)

/-- Where a moment stands in a run, the uses before it are those that its breaker was put to. -/
theorem exists_uses {b : Breaker} {us : List Use} {pre post : List Moment} {x : Moment}
    (h : moments cfg b us = pre ++ x :: post) : ∃ us' us'', us = us' ++ x.use :: us'' ∧
      pre = moments cfg b us' ∧ x.before = used cfg b us' := by
  induction us generalizing b pre with
  | nil => simp [moments] at h
  | cons u us ih =>
    cases pre with
    | nil =>
      obtain ⟨rfl, -⟩ := List.cons.inj h
      exact ⟨[], us, rfl, rfl, rfl⟩
    | cons y pre =>
      obtain ⟨rfl, rest⟩ := List.cons.inj h
      obtain ⟨us', us'', rfl, rfl, before⟩ := ih rest
      exact ⟨u :: us', us'', rfl, rfl, before⟩

theorem made_concat (xs : List Moment) (x : Moment) :
    made cfg (xs ++ [x]) = made cfg xs ++ (x.change? cfg).toList := by
  rw [made, List.filterMap_append]
  cases hx : x.change? cfg <;> simp [made, hx]

theorem made_sinceDrain_concat (xs : List Moment) (x : Moment) :
    made cfg (sinceDrain (xs ++ [x])) =
      if x.drains then [] else made cfg (sinceDrain xs) ++ (x.change? cfg).toList := by
  rw [sinceDrain]
  cases hx : x.drains with
  | true =>
    rw [List.rtakeWhile_concat_neg _ _ _ (by simp [hx])]
    rfl
  | false =>
    rw [List.rtakeWhile_concat_pos _ _ _ (by simp [hx]), made_concat]
    rfl

theorem collected_concat (xs : List Moment) (x : Moment) :
    collected (xs ++ [x]) = collected xs ++ x.collected := by
  rw [collected, List.flatMap_append, List.flatMap_singleton]
  rfl

/-- The list is the end of what happened since the last collection. -/
theorem used_pending (us : List Use) : (used cfg empty us).pending =
    (made cfg (sinceDrain (moments cfg empty us))).rtake mostPending := by
  induction us using List.reverseRecOn with
  | nil => exact (List.rtake_nil mostPending).symm
  | append_singleton us u ih =>
    rw [used_concat, moments_concat, made_sinceDrain_concat]
    rcases Moment.change_cases cfg ⟨u, used cfg empty us⟩ with
      ⟨none, pending, -⟩ | ⟨e, some, on, pending, -⟩
    · rw [pending, none]
      split_ifs
      · rfl
      · rw [ih, Option.toList_none, List.append_nil]
    · rw [pending, some, on, ih, noted_rtake]
      rfl

/-- A collection hands out the end of what happened since the one before it. -/
theorem collected_eq {us : List Use} {pre post : List Moment} {x : Moment}
    (h : moments cfg empty us = pre ++ x :: post) (drains : x.drains = true) :
    x.collected = (made cfg (sinceDrain pre)).rtake mostPending := by
  obtain ⟨us', us'', rfl, rfl, before⟩ := exists_uses cfg h
  rw [Moment.collected, if_pos drains, before]
  exact used_pending cfg us'

theorem pending_sublist (us : List Use) : (used cfg empty us).pending.Sublist
    (made cfg (sinceDrain (moments cfg empty us))) := by
  rw [used_pending]
  exact List.drop_sublist _ _

/-- What was collected, and what came since, is part of what happened. -/
theorem collected_sublist (us : List Use) :
    (collected (moments cfg empty us) ++ made cfg (sinceDrain (moments cfg empty us))).Sublist
      (made cfg (moments cfg empty us)) := by
  induction us using List.reverseRecOn with
  | nil => exact List.Sublist.refl []
  | append_singleton us u ih =>
    rw [moments_concat, made_sinceDrain_concat, made_concat, collected_concat]
    cases u with
    | act a =>
      have grown := ih.append_right ((⟨.act a, used cfg empty us⟩ : Moment).change? cfg).toList
      rw [List.append_assoc] at grown
      simpa [Moment.collected, Moment.drains] using grown
    | drain =>
      simpa [Moment.collected, Moment.drains, Moment.change?, Breaker.drain] using
        ((pending_sublist cfg us).append_left _).trans ih

/-- What happened on a route leads from shut to the state that it is in. -/
theorem leads_state (us : List Use) (route : String) :
    Leads .shut ((made cfg (moments cfg empty us)).filter fun e => e.route = route)
      ((used cfg empty us).state route) := by
  induction us using List.reverseRecOn with
  | nil => rfl
  | append_singleton us u ih =>
    rw [used_concat, moments_concat, made_concat, List.filter_append]
    rcases Moment.change_cases cfg ⟨u, used cfg empty us⟩ with
      ⟨none, -, states⟩ | ⟨e, some, -, -, source, allowed, states⟩
    · rw [none, states]
      simpa using ih
    · rw [some, states, Option.toList_some, List.filter_singleton]
      by_cases here : e.route = route
      · subst here
        rw [if_pos rfl]
        simpa using ih.concat source allowed
      · rw [if_neg (Ne.symm here)]
        simpa [here] using ih

theorem used_counts (us : List Use) (route : String) :
    ((used cfg empty us).circuit route).Counts cfg := by
  induction us using List.reverseRecOn with
  | nil => exact ⟨nofun, fun _ => ⟨rfl, rfl⟩⟩
  | append_singleton us u ih =>
    rw [used_concat]
    cases u with
    | drain => exact ih
    | act a =>
      rw [Moment.after, Act.run_moves]
      split_ifs with same
      · subst same
        exact (a.call.moves cfg a.now _).counts ih
      · exact ih

end

/-- However a breaker is used, and at whatever times, its list holds the last changes of state since
the last collection, as many as it can; that is what a collection hands out, and no change is
collected twice. The changes of a route lead from shut to its state, each from where the one before
it led and each one of the four; and successful trials are counted, short of the number that would
shut the circuit, in a half-open circuit only. -/
theorem feed_faithful (cfg : CircuitConfig) (us : List Use) :
    let b := used cfg empty us
    let xs := moments cfg empty us
    b.pending = (made cfg (sinceDrain xs)).rtake 1024 ∧
      (∀ pre x post, xs = pre ++ x :: post → x.drains = true →
        x.collected = (made cfg (sinceDrain pre)).rtake 1024) ∧
      (collected xs ++ b.pending).Sublist (made cfg xs) ∧
      (∀ route, Leads .shut ((made cfg xs).filter fun e => e.route = route) (b.state route)) ∧
      ∀ route, (b.circuit route).Counts cfg :=
  ⟨used_pending cfg us, fun _ _ _ => collected_eq cfg,
    ((pending_sublist cfg us).append_left _).trans (collected_sublist cfg us), leads_state cfg us,
    used_counts cfg us⟩

/-- Two routes trip and the changes are collected; later one of the two is tried again. -/
def triedAgain : List Use :=
  [.act ⟨.epoch, 1, "a", .failure⟩, .act ⟨.epoch, 2, "b", .failure⟩, .drain,
    .act ⟨Timestamp.epoch.add (.ofSeconds 60), 3, "a", .request⟩]

/-- A second collection hands out what came after the first one, and nothing is left then. -/
theorem feed_faithful_triedAgain :
    let cfg : CircuitConfig := { failureThreshold := 1 }
    let later : Timestamp := Timestamp.epoch.add (.ofSeconds 60)
    let second : Moment := ⟨.drain, used cfg empty triedAgain⟩
    let xs := moments cfg empty (triedAgain ++ [.drain])
    xs = moments cfg empty triedAgain ++ [second] ∧
      second.collected = [⟨"a", .tripped, .halfOpen, later, "cooldown elapsed"⟩] ∧
      (collected xs).map CircuitEvent.route = ["a", "b", "a"] ∧
      (used cfg empty (triedAgain ++ [.drain])).pending = [] := by
  intro cfg later second xs
  have split : xs = moments cfg empty triedAgain ++ [second] :=
    moments_concat cfg empty triedAgain .drain
  obtain ⟨pending, handed, -⟩ := feed_faithful cfg (triedAgain ++ [.drain])
  refine ⟨split, ?_, by decide +kernel, ?_⟩
  · rw [handed _ second [] split rfl]
    decide +kernel
  · rw [pending]
    decide +kernel

end Breaker

end Courier
