import Courier.Proofs.Solo.Caller

/-! A plan that the rest of the world keeps apart from, as far as `still` says. Between any two of
its actions the engine may change in every other respect: other plans go on, callers come and go. -/

namespace Courier

namespace Plan

variable {σ α : Type} {still : Engine → Engine → Prop} {p q : Plan α} {e e₁ : Engine}
  {past : List Deed}

/-- How far a plan has got from `e` on: what it did, the engine, and what is left of it. -/
inductive Apart (still : Engine → Engine → Prop) (p : Plan α) (e : Engine) :
    List Deed → Engine → Plan α → Prop where
  | start {e₁ : Engine} : still e e₁ → Apart still p e [] e₁ p
  | act {past : List Deed} {e₁ e₂ e₃ : Engine} {a : Action} {next : a.Reply → Plan α}
      {r : a.Reply} :
      Apart still p e past e₁ (.step a next) → e₁.Answers a r e₂ → still e₂ e₃ →
      Apart still p e (past ++ [⟨a, r⟩]) e₃ (next r)

/-- What is asked of an account of a plan that keeps a rule: neither what others do nor what the
rule allows puts it out of order. -/
structure Accounted (still : Engine → Engine → Prop) (R : Rule σ)
    (Inv : σ → List Deed → Engine → Prop) : Prop where
  still {s : σ} {past : List Deed} {e e' : Engine} : Inv s past e → still e e' → Inv s past e'
  act {s : σ} {past : List Deed} {e e' : Engine} {a : Action} {r : a.Reply} : Inv s past e →
    R.allows s a → e.Answers a r e' → Inv (R.after s ⟨a, r⟩) (past ++ [⟨a, r⟩]) e'

/-- Then it is in order wherever the plan has got to. -/
theorem Accounted.apart {R : Rule σ} {Inv : σ → List Deed → Engine → Prop}
    (acc : Accounted still R Inv) {s : σ} (inv : Inv s [] e) (keeps : p.Keeps R s)
    (apart : Apart still p e past e₁ q) : ∃ s', Inv s' past e₁ ∧ q.Keeps R s' := by
  induction apart with
  | start others => exact ⟨s, acc.still inv others, keeps⟩
  | act _ answers others ih =>
    obtain ⟨s', inv', allowed, onward⟩ := ih
    exact ⟨_, acc.still (acc.act inv' allowed answers) others, onward _⟩

/-- Whatever a worker asks for its job, it gets an answer. -/
theorem exists_answers {worker : String} {job : Job} {a : Action} (serves : a.Serves worker job)
    (e : Engine) : ∃ r e', e.Answers a r e' := by
  by_cases own : a.isForeign = false
  · obtain ⟨r, e', done, -⟩ := Engine.perform_serves (e := e) serves own
    exact ⟨r, e', Or.inr ⟨own, done⟩⟩
  · cases a with
    | drawUnit => exact ⟨Engine.middleUnit, e, Or.inl ⟨rfl, rfl⟩⟩
    | materialize => exact ⟨.noMaterializer, e, Or.inl ⟨rfl, rfl⟩⟩
    | callAdapter => exact ⟨.noAdapter, e, Or.inl ⟨rfl, rfl⟩⟩
    | _ => exact absurd rfl own

/-- So its plan comes to an end from wherever it has got to. -/
theorem Apart.completes {worker : String} {job : Job} (apart : Apart still p e past e₁ q)
    (calm : ∀ e, still e e) (serves : q.Uses (Action.Serves worker job)) :
    ∃ more e₂ a, Apart still p e (past ++ more) e₂ (.done a) := by
  induction q generalizing past e₁ with
  | done a => exact ⟨[], e₁, a, by rwa [List.append_nil]⟩
  | step a next ih =>
    obtain ⟨r, e₂, answers⟩ := exists_answers serves.1 e₁
    obtain ⟨more, e₃, b, ended⟩ := ih r (apart.act answers (calm e₂)) (serves.2 r)
    rw [List.append_assoc] at ended
    exact ⟨_, e₃, b, ended⟩

theorem Apart.uses {P : Action → Prop} (apart : Apart still p e past e₁ q) (uses : p.Uses P) :
    q.Uses P := by
  induction apart with
  | start => exact uses
  | act _ _ _ ih => exact ih.2 _

/-- The world outside, with an adapter that always answers alike. -/
def outside (answer : AdapterReply) : (a : Action) → Option a.Reply
  | .materialize _ => some .noMaterializer
  | .drawUnit => some Engine.middleUnit
  | .callAdapter _ => some answer
  | _ => none

/-- Carries a plan out by `n` actions at most, with nobody about. Gives what it did, the engine and
its result. -/
def carry? (outside : (a : Action) → Option a.Reply) :
    Nat → Engine → Plan α → Option (List Deed × Engine × α)
  | _, e, done a => some ([], e, a)
  | 0, _, step _ _ => none
  | n + 1, e, step a next =>
    match Scene.answer? outside e a with
    | some (r, e') => (carry? outside n e' (next r)).map fun c => (⟨a, r⟩ :: c.1, c.2)
    | none => none

theorem Apart.of_carry? {outside : (a : Action) → Option a.Reply} {n : Nat} {more : List Deed}
    {e₂ : Engine} {b : α} (apart : Apart still p e past e₁ q) (calm : ∀ e, still e e)
    (carried : carry? outside n e₁ q = some (more, e₂, b)) :
    Apart still p e (past ++ more) e₂ (.done b) := by
  induction q generalizing n past e₁ more with
  | done a =>
    simp only [carry?, Option.some.injEq, Prod.mk.injEq] at carried
    obtain ⟨rfl, rfl, rfl⟩ := carried
    rwa [List.append_nil]
  | step a next ih =>
    cases n with
    | zero => cases carried
    | succ n =>
      unfold carry? at carried
      split at carried
      · rename_i r e' answered
        obtain ⟨⟨more', e₃, b'⟩, rest, same⟩ := Option.map_eq_some_iff.1 carried
        cases same
        have ended := ih r (apart.act (Scene.answers_of_answer? answered) (calm e')) rest
        rwa [List.append_assoc] at ended
      · cases carried

end Plan

end Courier
