import Courier.Pacing
import Courier.Proofs.Breaker.Run
import Courier.Proofs.Limiter.Log

/-! The three gates that a send has to pass are kept by route, in tables that all routes share. What
happens on one route is no business of another: take a run apart and keep only what names a route,
or no route at all, and the route gets the answers that it got in the whole run. The limit across
all routes is what couples them, so there must be none. -/

namespace Courier

/-- The circuit breaker, the pacing and the rate limiter. -/
structure Gates (F : Type) where
  breaker : Breaker
  pacing : Pacing F
  limiter : Limiter

structure GatesConfig (F : Type) where
  circuit : CircuitConfig
  pacing : PacingConfig F
  limits : RateLimitConfig

namespace Gates

variable {F : Type}

def empty : Gates F := ⟨.empty, .empty, .empty⟩

/-- What the gates hold for one route. -/
structure View (F : Type) where
  circuit : Circuit
  pace : Option (Pace F)
  window : Window

def view (g : Gates F) (r : String) : View F :=
  ⟨g.breaker.circuit r, g.pacing.get? r, g.limiter.routeWindow r⟩

theorem view_congr {g g' : Gates F} {r : String}
    (circuit : g.breaker.circuit r = g'.breaker.circuit r)
    (pace : g.pacing.get? r = g'.pacing.get? r)
    (window : g.limiter.routeWindow r = g'.limiter.routeWindow r) : g.view r = g'.view r := by
  rw [view, view, circuit, pace, window]

/-- What may be asked of one route, or told about it. -/
inductive RouteOp where
  | request
  | state
  | success
  | failure
  | cancelTrial
  | wait (lag : Span)
  | delay
  | recordSend
  | recordSuccess
  | recordFailure (o : Outcome)
  | room
  | refund (taken : Timestamp)

inductive Answer (F : Type) where
  | passage (p : Passage)
  | state (s : CircuitState)
  | wait (d : Span)
  | delay (secs : F)
  | room (d : RateDecision)
  | events (es : List CircuitEvent)
  | usage (us : List WindowUse)
  | nothing

variable [Quantity F]

def RouteOp.run (cfg : GatesConfig F) (now : Timestamp) (route : String) (g : Gates F) :
    RouteOp → Answer F × Gates F
  | request =>
    let x := g.breaker.request cfg.circuit route now
    (.passage x.1, { g with breaker := x.2 })
  | state => (.state (g.breaker.state route), g)
  | success => (.nothing, { g with breaker := g.breaker.success cfg.circuit route now })
  | failure => (.nothing, { g with breaker := g.breaker.failure cfg.circuit route now })
  | cancelTrial => (.nothing, { g with breaker := g.breaker.cancelTrial route })
  | wait lag => (.wait (Pacing.wait cfg.pacing route lag now g.pacing), g)
  | delay => (.delay (Pacing.delay g.pacing route), g)
  | recordSend => (.nothing, { g with pacing := Pacing.recordSend route now g.pacing })
  | recordSuccess =>
    (.nothing, { g with pacing := Pacing.recordSuccess cfg.pacing route g.pacing })
  | recordFailure o =>
    (.nothing, { g with pacing := Pacing.recordFailure cfg.pacing route o g.pacing })
  | room =>
    let x := g.limiter.request cfg.limits route now
    (.room x.1, { g with limiter := x.2 })
  | refund taken => (.nothing, { g with limiter := g.limiter.refund cfg.limits route taken })

/-- An operation on the gates. Two name no route: the collection of the changes of state, and the
look at the windows, which trims them all. A list of all delays would only read them. -/
inductive Op where
  | on (route : String) (op : RouteOp)
  | drain
  | usage

namespace Op

def route? : Op → Option String
  | on route _ => some route
  | drain | usage => none

/-- Whether the operation names no route other than `r`. -/
def spares (r : String) (op : Op) : Bool := op.route?.all fun route => route = r

def run (cfg : GatesConfig F) (now : Timestamp) (g : Gates F) : Op → Answer F × Gates F
  | on route op => op.run cfg now route g
  | drain => (.events g.breaker.drain.1, { g with breaker := g.breaker.drain.2 })
  | usage =>
    let x := g.limiter.usage cfg.limits now
    (.usage x.1, { g with limiter := x.2 })

end Op

/-- What is answered in a run. Each operation comes at a time of its own. -/
def answers (cfg : GatesConfig F) (g : Gates F) :
    List (Timestamp × Op) → List (Timestamp × Op × Answer F)
  | [] => []
  | (now, op) :: rest =>
    (now, op, (op.run cfg now g).1) :: answers cfg (op.run cfg now g).2 rest

/-- Without a limit across all routes a request sees the window of its route only. -/
theorem room_alone {c : RateLimitConfig} (alone : c.overall = none) (route : String)
    (now : Timestamp) (s : Limiter) :
    let own := Limiter.consult (c.forRoute route) now (s.routeWindow route)
    (s.request c route now).1 = own.2.elim .allow .deny ∧
      ∀ r, (s.request c route now).2.routeWindow r = if r = route then
        own.2.elim (Limiter.note (c.forRoute route) now own.1) fun _ => own.1
      else s.routeWindow r := by
  unfold Limiter.request
  rw [alone]
  dsimp only
  generalize Limiter.consult (c.forRoute route) now (s.routeWindow route) = own
  obtain ⟨own, wait⟩ := own
  cases wait with
  | none => exact ⟨rfl, Limiter.routeWindow_insert _ _ _ _⟩
  | some wait => exact ⟨rfl, Limiter.routeWindow_insert _ _ _ _⟩

section

variable {cfg : GatesConfig F} {now : Timestamp} {route r : String} {g g' : Gates F}

theorem get?_update (f : Pace F → Pace F) (p : Pacing F) (r : String) :
    (Pacing.update route f p).get? r =
      if r = route then some (f ((p.get? r).getD Pacing.fresh)) else p.get? r := by
  rw [Pacing.update, Table.get?_insert]
  split_ifs with same
  · rw [same]
    rfl
  · rfl

theorem get?_recordFailure (c : PacingConfig F) (o : Outcome) (p : Pacing F) (r : String) :
    (Pacing.recordFailure c route o p).get? r =
      if r = route ∧ Pacing.isPressure c o = true then
        let s := (p.get? r).getD Pacing.fresh
        some { s with delaySecs := Pacing.grown c s.delaySecs }
      else p.get? r := by
  unfold Pacing.recordFailure
  cases Pacing.isPressure c o with
  | true => simp only [get?_update, and_true, if_true]
  | false => simp only [Bool.false_eq_true, and_false, if_false]

/-- An operation on a route leaves all others as they are. -/
theorem RouteOp.view_of_ne (other : r ≠ route) (op : RouteOp) :
    (op.run cfg now route g).2.view r = g.view r := by
  cases op with
  | state | wait | delay => rfl
  | request =>
    exact view_congr ((Breaker.circuit_apply (fun c => (c.request cfg.circuit now).2) route now
      g.breaker r).trans (if_neg other)) rfl rfl
  | success =>
    exact view_congr ((Breaker.circuit_apply (fun c => c.success cfg.circuit now) route now
      g.breaker r).trans (if_neg other)) rfl rfl
  | failure =>
    exact view_congr ((Breaker.circuit_apply (fun c => c.failure cfg.circuit now) route now
      g.breaker r).trans (if_neg other)) rfl rfl
  | cancelTrial =>
    exact view_congr ((Breaker.circuit_cancelTrial route g.breaker r).trans (if_neg other)) rfl rfl
  | recordSend => exact view_congr rfl ((get?_update _ g.pacing r).trans (if_neg other)) rfl
  | recordSuccess =>
    exact view_congr rfl ((Table.get?_modify route _ g.pacing r).trans (if_neg other)) rfl
  | recordFailure o =>
    exact view_congr rfl ((get?_recordFailure _ o g.pacing r).trans
      (if_neg fun both => other both.1)) rfl
  | room =>
    refine view_congr rfl rfl ?_
    show (g.limiter.request cfg.limits route now).2.routeWindow r = g.limiter.routeWindow r
    rcases Limiter.request_cases cfg.limits route now g.limiter with ⟨-, -, after⟩ | ⟨-, -, after⟩
    · rw [after, Limiter.routeWindow_insert, if_neg other, Limiter.routeWindow]
    · rw [after, Limiter.routeWindow_insert, if_neg other, Limiter.routeWindow]
  | refund taken =>
    exact view_congr rfl rfl ((Limiter.routeWindow_refund r).trans (if_neg other))

/-- It is answered from what the gates hold for its route. -/
theorem RouteOp.run_congr (alone : cfg.limits.overall = none) (same : g.view r = g'.view r)
    (op : RouteOp) : (op.run cfg now r g).1 = (op.run cfg now r g').1 ∧
      (op.run cfg now r g).2.view r = (op.run cfg now r g').2.view r := by
  obtain ⟨circuit, pace, window⟩ := View.mk.inj same
  have moves : ∀ move : Circuit → Circuit.Move,
      (g.breaker.apply r now (move (g.breaker.circuit r))).circuit r =
        (g'.breaker.apply r now (move (g'.breaker.circuit r))).circuit r := by
    intro move
    rw [Breaker.circuit_apply, Breaker.circuit_apply, circuit]
  cases op with
  | request =>
    exact ⟨congrArg (fun c => Answer.passage (Circuit.request cfg.circuit now c).1) circuit,
      view_congr (moves fun c => (c.request cfg.circuit now).2) pace window⟩
  | state => exact ⟨congrArg (fun c => Answer.state (Circuit.state c)) circuit, same⟩
  | success => exact ⟨rfl, view_congr (moves fun c => c.success cfg.circuit now) pace window⟩
  | failure => exact ⟨rfl, view_congr (moves fun c => c.failure cfg.circuit now) pace window⟩
  | cancelTrial =>
    refine ⟨rfl, view_congr ?_ pace window⟩
    show (g.breaker.cancelTrial r).circuit r = (g'.breaker.cancelTrial r).circuit r
    rw [Breaker.circuit_cancelTrial, Breaker.circuit_cancelTrial, circuit]
  | wait lag =>
    refine ⟨?_, same⟩
    simp only [run, Pacing.wait, pace]
  | delay =>
    refine ⟨?_, same⟩
    simp only [run, Pacing.delay, Pacing.pace, pace]
  | recordSend =>
    refine ⟨rfl, view_congr circuit ?_ window⟩
    show (Pacing.recordSend r now g.pacing).get? r = (Pacing.recordSend r now g'.pacing).get? r
    rw [Pacing.recordSend, Pacing.recordSend, get?_update, get?_update, pace]
  | recordSuccess =>
    refine ⟨rfl, view_congr circuit ?_ window⟩
    show (Pacing.recordSuccess cfg.pacing r g.pacing).get? r =
      (Pacing.recordSuccess cfg.pacing r g'.pacing).get? r
    rw [Pacing.recordSuccess, Pacing.recordSuccess, Table.get?_modify, Table.get?_modify, pace]
  | recordFailure o =>
    refine ⟨rfl, view_congr circuit ?_ window⟩
    show (Pacing.recordFailure cfg.pacing r o g.pacing).get? r =
      (Pacing.recordFailure cfg.pacing r o g'.pacing).get? r
    rw [get?_recordFailure, get?_recordFailure, pace]
  | room =>
    obtain ⟨answer, after⟩ := room_alone alone r now g.limiter
    obtain ⟨answer', after'⟩ := room_alone alone r now g'.limiter
    refine ⟨?_, view_congr circuit pace ?_⟩
    · show Answer.room (g.limiter.request cfg.limits r now).1 =
        Answer.room (g'.limiter.request cfg.limits r now).1
      rw [answer, answer', window]
    · show (g.limiter.request cfg.limits r now).2.routeWindow r =
        (g'.limiter.request cfg.limits r now).2.routeWindow r
      rw [after, after', window]
  | refund taken =>
    refine ⟨rfl, view_congr circuit pace ?_⟩
    show (g.limiter.refund cfg.limits r taken).routeWindow r =
      (g'.limiter.refund cfg.limits r taken).routeWindow r
    rw [Limiter.routeWindow_refund, Limiter.routeWindow_refund, window]

theorem Op.view_of_not_spares {op : Op} (other : op.spares r = false) :
    (op.run cfg now g).2.view r = g.view r := by
  cases op with
  | on route op => exact op.view_of_ne fun same => by simp [spares, route?, same] at other
  | drain | usage => cases other

/-- An operation that names no other route is answered from what the gates hold for `r`, if it is
about `r`, and changes that in the same way. -/
theorem Op.run_congr (alone : cfg.limits.overall = none) (same : g.view r = g'.view r)
    (now : Timestamp) {op : Op} (own : op.spares r = true) :
    (op.route? = some r → (op.run cfg now g).1 = (op.run cfg now g').1) ∧
      (op.run cfg now g).2.view r = (op.run cfg now g').2.view r := by
  cases op with
  | on route op =>
    obtain rfl : route = r := by simpa [spares, route?] using own
    exact ⟨fun _ => (op.run_congr alone same).1, (op.run_congr alone same).2⟩
  | drain => exact ⟨nofun, same⟩
  | usage =>
    obtain ⟨circuit, pace, window⟩ := View.mk.inj same
    refine ⟨nofun, view_congr circuit pace ?_⟩
    show (g.limiter.settle cfg.limits now).routeWindow r =
      (g'.limiter.settle cfg.limits now).routeWindow r
    rw [Limiter.routeWindow_settle, Limiter.routeWindow_settle, window]

theorem answers_filter (alone : cfg.limits.overall = none) (same : g.view r = g'.view r)
    (ops : List (Timestamp × Op)) :
    (answers cfg g (ops.filter fun x => x.2.spares r)).filter (fun x => x.2.1.route? = some r) =
      (answers cfg g' ops).filter fun x => x.2.1.route? = some r := by
  induction ops generalizing g g' with
  | nil => rfl
  | cons x rest ih =>
    obtain ⟨now, op⟩ := x
    rw [answers]
    cases spared : op.spares r with
    | false =>
      have unnamed : ¬ op.route? = some r := by
        intro named
        simp [Op.spares, named] at spared
      rw [List.filter_cons_of_neg (by simp [spared]), List.filter_cons_of_neg (by simpa using unnamed)]
      exact ih (same.trans (Op.view_of_not_spares spared).symm)
    | true =>
      obtain ⟨answer, after⟩ := Op.run_congr alone same now spared
      rw [List.filter_cons_of_pos (by simp [spared]), answers, List.filter_cons, List.filter_cons,
        ih after]
      split_ifs with named
      · rw [answer (of_decide_eq_true named)]
      · rfl

/-- Without a limit across all routes, what a route is answered does not depend on what other routes
are asked or told: leave that out of a run, and the route gets the same answers at the same times. -/
theorem routes_isolated (cfg : GatesConfig F) (alone : cfg.limits.overall = none) (g : Gates F)
    (ops : List (Timestamp × Op)) (r : String) :
    (answers cfg g (ops.filter fun x => x.2.spares r)).filter (fun x => x.2.1.route? = some r) =
      (answers cfg g ops).filter fun x => x.2.1.route? = some r :=
  answers_filter alone rfl ops

end

/-- One failure trips a circuit, and a window has room for one call. -/
def strict : GatesConfig Float := ⟨{ failureThreshold := 1 }, .usual, ⟨none, some ⟨1, 60⟩, []⟩⟩

/-- The circuit of `a` trips and its window is full, while calls on `b` come in between. -/
def crossing : List (Timestamp × Op) :=
  [(.epoch, .on "a" .room), (.epoch, .on "a" .failure), (.epoch, .on "b" .request),
    (.epoch, .usage), (.epoch, .on "a" .room), (.epoch, .on "b" .room),
    (.epoch, .on "a" .request), (.epoch, .drain), (.epoch, .on "b" .state)]

theorem routes_isolated_crossing :
    let kept := crossing.filter fun x => x.2.spares "b"
    crossing.length = 9 ∧ kept.length = 5 ∧
      ((answers strict empty kept).filter (fun x => x.2.1.route? = some "b")).map (fun x => x.2.2) =
        [.passage .granted, .room .allow, .state .shut] ∧
      (answers strict empty kept).filter (fun x => x.2.1.route? = some "b") =
        (answers strict empty crossing).filter fun x => x.2.1.route? = some "b" :=
  ⟨rfl, by decide +kernel, by rfl, routes_isolated strict rfl empty crossing "b"⟩

end Gates

end Courier
