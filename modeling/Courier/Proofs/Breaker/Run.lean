import Mathlib.Data.List.Induction
import Courier.Breaker
import Courier.Proofs.Table
import Courier.Proofs.Time

/-! Runs of a breaker. A call works on the circuit of its route and on no other. Callers keep to a
protocol: each asks once to pass, and one that was let through reports once at most, on the route
that it asked for. -/

namespace Courier

namespace Circuit

/-- What a caller may say to a circuit. -/
inductive Call where
  | request
  | success
  | failure
  | cancelTrial
deriving DecidableEq

/-- What a call is answered, and the circuit after it. -/
def Call.run (cfg : CircuitConfig) (now : Timestamp) (c : Circuit) : Call → Option Passage × Circuit
  | request => (some (c.request cfg now).1, (c.request cfg now).2.circuit)
  | success => (none, (c.success cfg now).circuit)
  | failure => (none, (c.failure cfg now).circuit)
  | cancelTrial => (none, c.cancelTrial)

end Circuit

namespace Breaker

/-- A call by a caller on a route. -/
structure Act where
  now : Timestamp
  caller : Nat
  route : String
  call : Circuit.Call

def Act.run (cfg : CircuitConfig) (b : Breaker) (a : Act) : Option Passage × Breaker :=
  match a.call with
  | .request => (some (b.request cfg a.route a.now).1, (b.request cfg a.route a.now).2)
  | .success => (none, b.success cfg a.route a.now)
  | .failure => (none, b.failure cfg a.route a.now)
  | .cancelTrial => (none, b.cancelTrial a.route)

@[simp] theorem report_routes (e : CircuitEvent) (b : Breaker) :
    (b.report e).routes = b.routes := by
  unfold report
  split <;> rfl

/-- A circuit that moves leaves all others where they are. -/
theorem circuit_apply (move : Circuit → Circuit.Move) (route : String) (now : Timestamp)
    (b : Breaker) (r : String) : (b.apply route now (move (b.circuit route))).circuit r =
      if r = route then (move (b.circuit r)).circuit else b.circuit r := by
  have routes : (b.apply route now (move (b.circuit route))).routes =
      b.routes.insert route (move (b.circuit route)).circuit := by
    unfold apply
    cases (move (b.circuit route)).reason with
    | none => rfl
    | some reason => exact report_routes _ _
  rw [circuit, routes, Table.get?_insert]
  split_ifs with hr
  · rw [hr]
    rfl
  · rfl

theorem circuit_cancelTrial (route : String) (b : Breaker) (r : String) :
    (b.cancelTrial route).circuit r =
      if r = route then (b.circuit r).cancelTrial else b.circuit r := by
  rw [circuit, cancelTrial, Table.get?_modify]
  split_ifs
  · rw [circuit]
    cases b.routes.get? r <;> rfl
  · rfl

/-- A call is answered by the circuit of its route, and leaves all others as they are. -/
theorem Act.run_circuit (cfg : CircuitConfig) (b : Breaker) (a : Act) :
    (a.run cfg b).1 = (a.call.run cfg a.now (b.circuit a.route)).1 ∧
    ∀ r, (a.run cfg b).2.circuit r =
      if r = a.route then (a.call.run cfg a.now (b.circuit r)).2 else b.circuit r := by
  obtain ⟨now, caller, route, call⟩ := a
  cases call with
  | request => exact ⟨rfl, circuit_apply (fun c => (c.request cfg now).2) route now b⟩
  | success => exact ⟨rfl, circuit_apply (fun c => c.success cfg now) route now b⟩
  | failure => exact ⟨rfl, circuit_apply (fun c => c.failure cfg now) route now b⟩
  | cancelTrial => exact ⟨rfl, circuit_cancelTrial route b⟩

/-- One call of a run, with the breaker that it found. -/
structure Entry extends Act where
  before : Breaker

namespace Entry

variable (cfg : CircuitConfig) (e : Entry)

def answer : Option Passage := (e.toAct.run cfg e.before).1

def after : Breaker := (e.toAct.run cfg e.before).2

/-- The caller asks to pass on `route`. -/
def Asks (route : String) : Prop := e.route = route ∧ e.call = .request

/-- The caller reports on `route`, or gives its trial back. -/
def Reports (route : String) : Prop := e.route = route ∧ e.call ≠ .request

/-- The caller is let through on `route`. -/
def Passes (route : String) : Prop := e.Asks route ∧ e.answer cfg ≠ some .denied

instance (route : String) : Decidable (e.Asks route) := inferInstanceAs (Decidable (_ ∧ _))

instance (route : String) : Decidable (e.Reports route) := inferInstanceAs (Decidable (_ ∧ _))

instance (route : String) : Decidable (e.Passes cfg route) := inferInstanceAs (Decidable (_ ∧ _))

end Entry

variable {cfg : CircuitConfig}

/-- A caller that was let through on `route` and has not reported since. -/
def IsOut (cfg : CircuitConfig) (h : List Entry) (caller : Nat) (route : String) : Prop :=
  (∃ e ∈ h, e.caller = caller ∧ e.Passes cfg route) ∧
    ∀ e ∈ h, e.caller = caller → ¬ e.Reports route

/-- The clock does not go back; a caller asks once, and one that is out reports once. A trial can
be given back only by a caller that is on one. -/
def Act.Fits (cfg : CircuitConfig) (h : List Entry) (a : Act) : Prop :=
  (∀ e ∈ h, e.now ≤ a.now) ∧
    match a.call with
    | .request => ∀ e ∈ h, e.caller ≠ a.caller
    | .success | .failure => IsOut cfg h a.caller a.route
    | .cancelTrial => IsOut cfg h a.caller a.route ∧
        ∃ e ∈ h, e.caller = a.caller ∧ e.answer cfg = some .onTrial

inductive Run (cfg : CircuitConfig) : List Entry → Breaker → Prop where
  | nil : Run cfg [] empty
  | snoc {h : List Entry} {b : Breaker} (run : Run cfg h b) (a : Act) (fits : a.Fits cfg h) :
      Run cfg (h ++ [⟨a, b⟩]) (a.run cfg b).2

/-- The last entry of a run is a step of its own. -/
theorem Run.of_snoc {h : List Entry} {e : Entry} {b : Breaker} (run : Run cfg (h ++ [e]) b) :
    Run cfg h e.before ∧ e.Fits cfg h ∧ b = e.after cfg := by
  generalize hh : h ++ [e] = h' at run
  cases run with
  | nil => simp at hh
  | snoc run a fits =>
    obtain ⟨rfl, he⟩ := List.append_inj' hh rfl
    cases he
    exact ⟨run, fits, rfl⟩

theorem Run.of_append {h : List Entry} {b : Breaker} (h' : List Entry)
    (run : Run cfg (h ++ h') b) : ∃ b', Run cfg h b' := by
  induction h' using List.reverseRecOn generalizing b with
  | nil => exact ⟨b, by simpa using run⟩
  | append_singleton h' e ih =>
    rw [← List.append_assoc] at run
    exact ih run.of_snoc.1

instance (h : List Entry) (caller : Nat) (route : String) : Decidable (IsOut cfg h caller route) :=
  inferInstanceAs (Decidable ((∃ e ∈ h, _) ∧ ∀ e ∈ h, _))

instance (h : List Entry) : (a : Act) → Decidable (a.Fits cfg h)
  | ⟨_, caller, _, .request⟩ =>
    inferInstanceAs (Decidable ((∀ e ∈ h, _) ∧ ∀ e ∈ h, e.caller ≠ caller))
  | ⟨_, caller, route, .success⟩ | ⟨_, caller, route, .failure⟩ =>
    inferInstanceAs (Decidable ((∀ e ∈ h, _) ∧ IsOut cfg h caller route))
  | ⟨_, caller, route, .cancelTrial⟩ =>
    inferInstanceAs (Decidable ((∀ e ∈ h, _) ∧ IsOut cfg h caller route ∧ ∃ e ∈ h, _))

/-- The entries that acts make one after another from `b` on. -/
def entries (cfg : CircuitConfig) (b : Breaker) : List Act → List Entry
  | [] => []
  | a :: rest => ⟨a, b⟩ :: entries cfg (a.run cfg b).2 rest

/-- The breaker that they leave. -/
def afterAll (cfg : CircuitConfig) (b : Breaker) : List Act → Breaker
  | [] => b
  | a :: rest => afterAll cfg (a.run cfg b).2 rest

/-- Every one of them fits after those before it and after `h`. -/
def AllFit (cfg : CircuitConfig) (h : List Entry) (b : Breaker) : List Act → Prop
  | [] => True
  | a :: rest => a.Fits cfg h ∧ AllFit cfg (h ++ [⟨a, b⟩]) (a.run cfg b).2 rest

instance decidableAllFit (h : List Entry) (b : Breaker) :
    (acts : List Act) → Decidable (AllFit cfg h b acts)
  | [] => isTrue trivial
  | a :: rest =>
    @instDecidableAnd _ _ _ (decidableAllFit (h ++ [⟨a, b⟩]) (a.run cfg b).2 rest)

theorem Run.extend {h : List Entry} {b : Breaker} (run : Run cfg h b) (acts : List Act)
    (fit : AllFit cfg h b acts) : Run cfg (h ++ entries cfg b acts) (afterAll cfg b acts) := by
  induction acts generalizing h b with
  | nil => simpa [entries, afterAll] using run
  | cons a rest ih =>
    have := ih (run.snoc a fit.1) fit.2
    rwa [List.append_assoc] at this

theorem Act.Fits.isOut {h : List Entry} {a : Act} (fits : a.Fits cfg h) (hc : a.call ≠ .request) :
    IsOut cfg h a.caller a.route := by
  have := fits.2
  cases ha : a.call with
  | request => exact absurd ha hc
  | success => simpa [ha] using this
  | failure => simpa [ha] using this
  | cancelTrial =>
    simp only [ha] at this
    exact this.1

end Breaker

end Courier
