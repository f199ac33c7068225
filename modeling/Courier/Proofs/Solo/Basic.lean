import Courier.Proofs.Engine.Effect
import Courier.Proofs.Queue.View

/-! A loop that has the stores to itself. Its cycles follow one another and are never interrupted;
in between, and beside a cycle as far as its shift allows, others bring work and tidy up. Everything
that happens is entered into a history, each time with the engine that it met. -/

namespace Courier

open Plan

/-- What may happen to an engine: an action is answered, or a caller brings a job. -/
inductive Happening where
  | deed (d : Deed)
  | enqueued (j : Job) (r : Except Failure Handle)

structure Moment where
  before : Engine
  what : Happening

namespace Engine

/-- All stores are in memory, and none is made to fail. -/
def InMemory (e : Engine) : Prop := e.unreachable = [] ∧ e.surroundings.faults = []

instance (e : Engine) : Decidable e.InMemory :=
  inferInstanceAs (Decidable (e.unreachable = [] ∧ e.surroundings.faults = []))

/-- An answer to an action: what the world outside says may be anything. -/
def Answers (e : Engine) (a : Action) (r : a.Reply) (e' : Engine) : Prop :=
  (a.isForeign = true ∧ e' = e) ∨ (a.isForeign = false ∧ e.perform a = .reply r e')

/-- What others do takes the same course as what the loop does. -/
inductive Meets (e : Engine) : Happening → Engine → Prop where
  | deed {a : Action} {r : a.Reply} {e' : Engine} : a.isForeign = false →
      e.perform a = .reply r e' → Meets e (.deed ⟨a, r⟩) e'
  | enqueued (j : Job) : Meets e (.enqueued j (e.enqueue j).1) (e.enqueue j).2

end Engine

namespace Engine

variable {e e' : Engine}

/-- In memory a call comes through to its store. -/
theorem InMemory.call {γ : Type} (h : e.InMemory) (c : StoreCall) (offline : Except Error γ)
    (body : Engine → Except Error γ × Engine) :
    e.call c offline body = ((body e).1.mapError .error, (body e).2) :=
  call_through (by rw [h.1]; rfl) h.2 offline body

/-- So its result is that of the store. -/
theorem InMemory.result {γ : Type} {c : StoreCall} {offline : Except Error γ}
    {body : Engine → Except Error γ × Engine} {r : Except Failure γ} (h : e.InMemory)
    (done : replied (e.call c offline body) = .reply r e') :
    r = (body e).1.mapError .error ∧ e' = (body e).2 := by
  have done := reply_inj done
  rw [h.call] at done
  obtain ⟨hr, he⟩ := Prod.mk.inj done
  exact ⟨hr.symm, he.symm⟩

namespace Answers

variable {a : Action} {r : a.Reply}

theorem performed (h : e.Answers a r e') (own : a.isForeign = false) :
    e.perform a = .reply r e' := by
  rcases h with ⟨foreign, -⟩ | ⟨-, done⟩
  · rw [own] at foreign
    cases foreign
  · exact done

theorem kept (h : e.Answers a r e') : KeptBut a.store? e e' := by
  rcases h with ⟨-, rfl⟩ | ⟨own, done⟩
  · exact .refl _ _
  · exact perform_keeps own done

theorem made (h : e.Answers a r e') : Made (Deed.made? ⟨a, r⟩) e e' := by
  rcases h with ⟨foreign, rfl⟩ | ⟨own, done⟩
  · cases a <;> first | rfl | cases foreign
  · exact perform_made own done

theorem mark (h : e.Answers a r e') (key : String) :
    e'.attemptState? key = Deed.mark key ⟨a, r⟩ (e.attemptState? key) := by
  rcases h with ⟨foreign, rfl⟩ | ⟨own, done⟩
  · cases a <;> first | rfl | cases foreign
  · exact perform_mark own done key

end Answers

theorem Made.keyed {c? : Option Queue.Call} (h : Made c? e e') (hq : e.queue.Keyed) :
    e'.queue.Keyed := by
  cases c? with
  | none => rwa [show e'.queue = e.queue from h]
  | some c =>
    obtain ⟨x, ok⟩ := h
    exact (Queue.Call.change ok).keyed hq

end Engine

/-- The shift of a loop: the cycles that it may run, and what goes on beside them. -/
structure Shift where
  starts : Engine → Prop
  cycle : Attempt Nat → Prop
  /-- What others may do to an engine after so much has happened; `idle` when no cycle is under
  way. -/
  beside : (h : List Moment) → (idle : Bool) → Engine → Happening → Prop
  /-- How an engine may change with nobody looking. -/
  elsewhere : Engine → Engine → Prop

namespace Shift

/-- Histories, with the engine that they lead to and what is left of the cycle under way. A cycle
that crashes never comes to its end. -/
inductive Run (D : Shift) : List Moment → Engine → Option (Attempt Nat) → Prop where
  | start {e : Engine} : D.starts e → Run D [] e none
  | begin {h : List Moment} {e : Engine} {p : Attempt Nat} : Run D h e none → D.cycle p →
      Run D h e (some p)
  | act {h : List Moment} {e e' : Engine} {a : Action} {next : a.Reply → Attempt Nat}
      {r : a.Reply} : Run D h e (some (.step a next)) → e.InMemory → e.Answers a r e' →
      Run D (h ++ [⟨e, .deed ⟨a, r⟩⟩]) e' (some (next r))
  | finish {h : List Moment} {e : Engine} {r : Except Failure Nat} :
      Run D h e (some (.done r)) → r ≠ .error .crash → Run D h e none
  | beside {h : List Moment} {e e' : Engine} {c : Option (Attempt Nat)} {v : Happening} :
      Run D h e c → D.beside h c.isNone e v → e.Meets v e' → Run D (h ++ [⟨e, v⟩]) e' c
  | elsewhere {h : List Moment} {e e' : Engine} {c : Option (Attempt Nat)} :
      Run D h e c → D.elsewhere e e' → Run D h e' c

variable {σ : Type}

/-- What is asked of an account of a shift: the cycles keep to the rule, and whatever the rule
allows leaves the account in order. The loop is at `rest` between its cycles. -/
structure Accounted (D : Shift) (R : Rule σ) (rest : σ) (post : σ → Except Failure Nat → Prop)
    (Inv : σ → List Moment → Engine → Prop) : Prop where
  starts {e : Engine} : D.starts e → Inv rest [] e
  cycle {p : Attempt Nat} : D.cycle p → p.Ensures R post rest
  act {s : σ} {h : List Moment} {e e' : Engine} {a : Action} {r : a.Reply} : Inv s h e →
    R.allows s a → e.InMemory → e.Answers a r e' →
    Inv (R.after s ⟨a, r⟩) (h ++ [⟨e, .deed ⟨a, r⟩⟩]) e'
  finish {s : σ} {h : List Moment} {e : Engine} {r : Except Failure Nat} : Inv s h e →
    post s r → r ≠ .error .crash → Inv rest h e
  beside {s : σ} {h : List Moment} {e e' : Engine} {idle : Bool} {v : Happening} : Inv s h e →
    (idle = true → s = rest) → D.beside h idle e v → e.Meets v e' → Inv s (h ++ [⟨e, v⟩]) e'
  elsewhere {s : σ} {h : List Moment} {e e' : Engine} : Inv s h e → D.elsewhere e e' → Inv s h e'

/-- Then the account is in order at every point of every run. -/
theorem Accounted.run {D : Shift} {R : Rule σ} {rest : σ} {post : σ → Except Failure Nat → Prop}
    {Inv : σ → List Moment → Engine → Prop} (acc : D.Accounted R rest post Inv)
    {h : List Moment} {e : Engine} {c : Option (Attempt Nat)} (run : D.Run h e c) :
    ∃ s, Inv s h e ∧ (c = none → s = rest) ∧ ∀ p, c = some p → p.Ensures R post s := by
  induction run with
  | start hs => exact ⟨rest, acc.starts hs, fun _ => rfl, nofun⟩
  | begin _ hp ih =>
    obtain ⟨s, inv, idle, -⟩ := ih
    refine ⟨s, inv, nofun, ?_⟩
    rintro p ⟨⟩
    rw [idle rfl]
    exact acc.cycle hp
  | @act h e e' a next r _ inMemory answers ih =>
    obtain ⟨s, inv, -, keeps⟩ := ih
    obtain ⟨allowed, onward⟩ := keeps _ rfl
    refine ⟨_, acc.act inv allowed inMemory answers, nofun, ?_⟩
    rintro p ⟨⟩
    exact onward r
  | finish _ ended ih =>
    obtain ⟨s, inv, -, keeps⟩ := ih
    exact ⟨rest, acc.finish inv (keeps _ rfl) ended, fun _ => rfl, nofun⟩
  | @beside h e e' c v _ allowed meets ih =>
    obtain ⟨s, inv, idle, keeps⟩ := ih
    refine ⟨s, acc.beside inv (fun hc => idle ?_) allowed meets, idle, keeps⟩
    exact Option.isNone_iff_eq_none.1 hc
  | elsewhere _ changed ih =>
    obtain ⟨s, inv, idle, keeps⟩ := ih
    exact ⟨s, acc.elsewhere inv changed, idle, keeps⟩

end Shift

/-- How far a shift has got. -/
structure Scene where
  past : List Moment
  engine : Engine
  cycle : Option (Attempt Nat)

namespace Scene

variable {D : Shift} {s : Scene}

def Reached (D : Shift) (s : Scene) : Prop := D.Run s.past s.engine s.cycle

/-- Starts a cycle. -/
def start (p : Attempt Nat) (s : Scene) : Scene := { s with cycle := some p }

theorem Reached.start (h : s.Reached D) (idle : s.cycle.isNone = true) {p : Attempt Nat}
    (cycle : D.cycle p) : (s.start p).Reached D := by
  obtain ⟨past, e, c⟩ := s
  obtain rfl : c = none := Option.isNone_iff_eq_none.1 idle
  exact .begin h cycle

/-- Time passes. -/
def sleep (ms : Nat) (s : Scene) : Scene :=
  { s with engine := { s.engine with sleptMs := s.engine.sleptMs + ms } }

/-- Somebody else has the engine do something. -/
def tend (a : Action) (s : Scene) : Scene :=
  match s.engine.perform a with
  | .reply r e' => ⟨s.past ++ [⟨s.engine, .deed ⟨a, r⟩⟩], e', s.cycle⟩
  | .wait _ _ _ => s

theorem Reached.tend (h : s.Reached D) {a : Action} (own : a.isForeign = false)
    (allowed : ∀ r, D.beside s.past s.cycle.isNone s.engine (.deed ⟨a, r⟩)) :
    (s.tend a).Reached D := by
  unfold Scene.tend
  split
  · rename_i done
    exact .beside h (allowed _) (.deed own done)
  · exact h

/-- The engine's answer to an action, or that of the world outside, which may have none. -/
def answer? (outside : (a : Action) → Option a.Reply) (e : Engine) (a : Action) :
    Option (a.Reply × Engine) :=
  if a.isForeign then (outside a).map fun r => (r, e)
  else
    match e.perform a with
    | .reply r e' => some (r, e')
    | .wait _ _ _ => none

theorem answers_of_answer? {outside : (a : Action) → Option a.Reply} {e e' : Engine} {a : Action}
    {r : a.Reply} (h : answer? outside e a = some (r, e')) : e.Answers a r e' := by
  unfold answer? at h
  split_ifs at h with foreign
  · obtain ⟨r', -, same⟩ := Option.map_eq_some_iff.1 h
    exact Or.inl ⟨foreign, (Prod.mk.inj same).2.symm⟩
  · split at h
    · rename_i done
      cases h
      exact Or.inr ⟨by simpa using foreign, done⟩
    · cases h

/-- The cycle under way goes on by one action or ends. -/
def turn (outside : (a : Action) → Option a.Reply) (s : Scene) : Scene :=
  match s.cycle with
  | some (.step a next) =>
    if s.engine.InMemory then
      match answer? outside s.engine a with
      | some (r, e') => ⟨s.past ++ [⟨s.engine, .deed ⟨a, r⟩⟩], e', some (next r)⟩
      | none => s
    else s
  | some (.done (.ok _)) => { s with cycle := none }
  | _ => s

theorem Reached.turn (h : s.Reached D) (outside : (a : Action) → Option a.Reply) :
    (s.turn outside).Reached D := by
  obtain ⟨past, e, c⟩ := s
  unfold Scene.turn
  split
  · rename_i a next hc
    obtain rfl : c = some (.step a next) := hc
    split_ifs with inMemory
    · split
      · rename_i answered
        exact h.act inMemory (answers_of_answer? answered)
      · exact h
    · exact h
  · rename_i n hc
    obtain rfl : c = some (.done (.ok n)) := hc
    exact h.finish nofun
  · exact h

def turns (outside : (a : Action) → Option a.Reply) : Nat → Scene → Scene
  | 0, s => s
  | n + 1, s => (s.turn outside).turns outside n

theorem Reached.turns (h : s.Reached D) (outside : (a : Action) → Option a.Reply) (n : Nat) :
    (s.turns outside n).Reached D := by
  induction n generalizing s with
  | zero => exact h
  | succ n ih => exact ih (h.turn outside)

theorem mem_past_turns {m : Moment} (hm : m ∈ s.past) (outside : (a : Action) → Option a.Reply)
    (n : Nat) : m ∈ (s.turns outside n).past := by
  induction n generalizing s with
  | zero => exact hm
  | succ n ih =>
    refine ih ?_
    unfold turn
    split
    · split_ifs
      · split
        · exact List.mem_append_left _ hm
        · exact hm
      · exact hm
    · exact hm
    · exact hm

end Scene

end Courier
