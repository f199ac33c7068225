import Courier.Supervisor
import Courier.Dispatcher

/-! Rules that plans keep. A rule follows the answered actions of a plan by a state of its own and
says which action may come next; a plan keeps it when it does so whatever the answers are. -/

namespace Courier

/-- An action and its answer. -/
structure Deed where
  action : Action
  reply : action.Reply

structure Rule (σ : Type) where
  allows : σ → Action → Prop
  after : σ → Deed → σ
  /-- Where a plan may end. -/
  ends : σ → Prop

variable {σ α β : Type}

def Rule.follow (R : Rule σ) (s : σ) (past : List Deed) : σ := past.foldl R.after s

@[simp] theorem Rule.follow_snoc (R : Rule σ) (s : σ) (past : List Deed) (d : Deed) :
    R.follow s (past ++ [d]) = R.after (R.follow s past) d := by
  simp [Rule.follow]

namespace Plan

/-- From `s` on, the plan does only what the rule allows, whatever it is answered. -/
def Keeps (R : Rule σ) : σ → Plan α → Prop
  | s, done _ => R.ends s
  | s, step a next => R.allows s a ∧ ∀ r, (next r).Keeps R (R.after s ⟨a, r⟩)

/-- A plan that keeps one rule keeps another that the first one simulates. -/
theorem Keeps.simulate {τ : Type} {R : Rule σ} {S : Rule τ} {rel : σ → τ → Prop}
    (allows : ∀ s t a, rel s t → R.allows s a → S.allows t a ∧
      ∀ r, rel (R.after s ⟨a, r⟩) (S.after t ⟨a, r⟩))
    (ends : ∀ s t, rel s t → R.ends s → S.ends t) {p : Plan α} {s : σ} {t : τ} (hrel : rel s t)
    (keeps : p.Keeps R s) : p.Keeps S t := by
  induction p generalizing s t with
  | done a => exact ends s t hrel keeps
  | step a next ih =>
    obtain ⟨allowed, onward⟩ := allows s t a hrel keeps.1
    exact ⟨allowed, fun r => ih r (onward r) (keeps.2 r)⟩

/-- From `s` on, the plan does only what the rule allows, whatever it is answered, and ends in a
state and with a result that fit `post`. -/
def Ensures (R : Rule σ) (post : σ → α → Prop) : σ → Plan α → Prop
  | s, done a => post s a
  | s, step a next => R.allows s a ∧ ∀ r, (next r).Ensures R post (R.after s ⟨a, r⟩)

namespace Ensures

variable {R : Rule σ} {s : σ}

theorem bind {p : Plan α} {f : α → Plan β} {mid : σ → α → Prop} {post : σ → β → Prop}
    (h : p.Ensures R mid s) (onward : ∀ s a, mid s a → (f a).Ensures R post s) :
    (p.bind f).Ensures R post s := by
  induction p generalizing s with
  | done a => exact onward s a h
  | step a next ih => exact ⟨h.1, fun r => ih r (h.2 r)⟩

/-- Where the rule allows everything and never leaves, every plan is in order. -/
theorem of_free {post : σ → α → Prop} (free : ∀ a, R.allows s a) (stays : ∀ d, R.after s d = s)
    (ends : ∀ a, post s a) (p : Plan α) : p.Ensures R post s := by
  induction p with
  | done a => exact ends a
  | step a next ih => exact ⟨free a, fun r => (stays ⟨a, r⟩).symm ▸ ih r⟩

/-- A plan that is followed whatever the first one reports. -/
theorem regardless {p : Attempt α} {k : Attempt β} {mid : σ → Except Failure α → Prop}
    (h : p.Ensures R mid s) (ends : ∀ s r, mid s r → R.ends s)
    (onward : ∀ s r, mid s r → k.Keeps R s) : (p.regardless k).Keeps R s := by
  induction p generalizing s with
  | done r =>
    rcases r with (_ | _) | _
    · exact onward s _ h
    · exact ends s _ h
    · exact onward s _ h
  | step a next ih => exact ⟨h.1, fun r => ih r (h.2 r)⟩

/-- What a plan ensures, it ensures by keeping the rule. -/
theorem keeps {post : σ → α → Prop} {p : Plan α} (h : p.Ensures R post s)
    (ends : ∀ s a, post s a → R.ends s) : p.Keeps R s := by
  induction p generalizing s with
  | done a => exact ends s a h
  | step a next ih => exact ⟨h.1, fun r => ih r (h.2 r)⟩

end Ensures

/-- All actions of the plan, whatever it is answered, are such as `P` says. -/
def Uses (P : Action → Prop) : Plan α → Prop
  | done _ => True
  | step a next => P a ∧ ∀ r, (next r).Uses P

theorem Uses.mono {P Q : Action → Prop} {p : Plan α} (h : p.Uses P) (sub : ∀ a, P a → Q a) :
    p.Uses Q := by
  induction p with
  | done a => trivial
  | step a next ih => exact ⟨sub a h.1, fun r => ih r (h.2 r)⟩

/-- A plan uses what its rule allows. -/
theorem Keeps.uses {P : Action → Prop} {R : Rule σ} {p : Plan α} {s : σ} (h : p.Keeps R s)
    (sub : ∀ s a, R.allows s a → P a) : p.Uses P := by
  induction p generalizing s with
  | done a => trivial
  | step a next ih => exact ⟨sub s a h.1, fun r => ih r (h.2 r)⟩

/-- A plan that uses what is allowed everywhere keeps the rule from anywhere. -/
theorem Uses.keeps {P : Action → Prop} {R : Rule σ} {p : Plan α} (h : p.Uses P)
    (free : ∀ s a, P a → R.allows s a) (ends : ∀ s, R.ends s) (s : σ) : p.Keeps R s := by
  induction p generalizing s with
  | done a => exact ends s
  | step a next ih => exact ⟨free s a h.1, fun r => ih r (h.2 r) _⟩

/-- A plan that uses what the rule takes no notice of leaves the state as it is. -/
theorem Uses.ensures {P : Action → Prop} {p : Plan α} (h : p.Uses P) {R : Rule σ} {s : σ}
    (unnoticed : ∀ a, P a → R.allows s a ∧ ∀ r, R.after s ⟨a, r⟩ = s) :
    p.Ensures R (fun s' _ => s' = s) s := by
  induction p with
  | done a => rfl
  | step a next ih =>
    obtain ⟨allowed, stays⟩ := unnoticed a h.1
    exact ⟨allowed, fun r => (stays r).symm ▸ ih r (h.2 r)⟩

/-- So it may be followed wherever the rule may be left. -/
theorem Uses.stays {P : Action → Prop} {p : Plan α} (h : p.Uses P) {R : Rule σ} {s : σ}
    (unnoticed : ∀ a, P a → R.allows s a ∧ ∀ r, R.after s ⟨a, r⟩ = s) (ends : R.ends s) :
    p.Keeps R s := by
  induction p with
  | done a => exact ends
  | step a next ih =>
    obtain ⟨allowed, stays⟩ := unnoticed a h.1
    exact ⟨allowed, fun r => (stays r).symm ▸ ih r (h.2 r)⟩

theorem bind_assoc {γ : Type} (p : Plan α) (f : α → Plan β) (g : β → Plan γ) :
    (p.bind f).bind g = p.bind fun a => (f a).bind g := by
  induction p with
  | done a => rfl
  | step a next ih =>
    simp only [bind]
    congr 1
    funext r
    exact ih r

end Plan

end Courier
