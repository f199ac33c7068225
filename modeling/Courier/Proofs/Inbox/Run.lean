import Mathlib.Algebra.GroupWithZero.Nat
import Mathlib.Data.List.Induction
import Courier.Proofs.Inbox.Oldest

/-! Runs of an inbox from empty: any calls of any consumers, in any order, at any readings of the
clock, whether they succeed or fail. An append draws an id that no record came under before. -/

namespace Courier.Inbox

/-- One call of a run, with the inbox that it found. -/
structure Entry where
  now : Timestamp
  call : Call
  before : Inbox

namespace Entry

def answer (e : Entry) : Except Error Answer := e.call.answer e.now e.before

def after (e : Entry) : Inbox := e.call.after e.now e.before

/-- The id under which a record came in. -/
def given? (e : Entry) : Option EnvelopeId :=
  match e.call, e.answer with
  | .append id _, .ok (.taken true) => some id
  | _, _ => none

/-- Whether a lease returned the record. -/
def delivers (id : EnvelopeId) (e : Entry) : Bool :=
  match e.answer with
  | .ok (.records rs) => rs.any fun r => r.id = id
  | _ => false

variable {e : Entry} {id : EnvelopeId} {rs : List InboxRecord} {r : InboxRecord}

theorem delivers_eq_true (answer : e.answer = .ok (.records rs)) (hr : r ∈ rs) (hid : r.id = id) :
    e.delivers id = true := by
  rw [delivers, answer]
  exact List.any_eq_true.2 ⟨r, hr, decide_eq_true hid⟩

theorem delivers_eq_false
    (none : ∀ rs, e.answer = .ok (.records rs) → ∀ r ∈ rs, r.id ≠ id) : e.delivers id = false := by
  unfold delivers
  split
  · rename_i rs answer
    simpa using none rs answer
  · rfl

end Entry

/-- The ids of all records that came in. -/
def given (h : List Entry) : List EnvelopeId := h.filterMap Entry.given?

/-- How many leases returned the record. -/
def deliveries (id : EnvelopeId) (h : List Entry) : Nat := h.countP (Entry.delivers id)

def Fresh (h : List Entry) (c : Call) : Prop := ∀ id x, c = .append id x → id ∉ given h

inductive Run : List Entry → Inbox → Prop where
  | nil : Run [] empty
  | snoc {h : List Entry} {s : Inbox} (run : Run h s) (now : Timestamp) (c : Call)
      (fresh : Fresh h c) : Run (h ++ [⟨now, c, s⟩]) (c.after now s)

instance (h : List Entry) : (c : Call) → Decidable (Fresh h c)
  | .append id x => decidable_of_iff (id ∉ given h) ⟨by rintro new _ _ ⟨⟩; exact new, fun f => f id x rfl⟩
  | .lease .. | .ack .. | .reclaim | .prune _ => isTrue fun _ _ => nofun

theorem given_snoc (h : List Entry) (e : Entry) : given (h ++ [e]) = given h ++ e.given?.toList := by
  unfold given
  rw [List.filterMap_append]
  cases he : e.given? <;> simp [he]

theorem deliveries_snoc (id : EnvelopeId) (h : List Entry) (e : Entry) :
    deliveries id (h ++ [e]) = deliveries id h + if e.delivers id then 1 else 0 := by
  rw [deliveries, List.countP_append, List.countP_singleton]
  rfl

/-- Exactly the leased records have a holder and an expiry. -/
def Marked (r : InboxRecord) : Prop :=
  (r.leasedBy.isSome ↔ r.state = .leased) ∧ (r.leaseUntil.isSome ↔ r.state = .leased)

/-- What the calls `h` leave behind. -/
structure Orderly (h : List Entry) (s : Inbox) : Prop where
  sound : s.Sound
  known : ∀ id r, s.records.get? id = some r → id ∈ given h
  marked : ∀ id r, s.records.get? id = some r → Marked r
  counted : ∀ id r, s.records.get? id = some r → r.deliveryCount = deliveries id h % 2 ^ 32
  undelivered : ∀ id, id ∉ given h → deliveries id h = 0

theorem orderly_empty : Orderly [] empty where
  sound := sound_empty
  known _ _ := nofun
  marked _ _ := nofun
  counted _ _ := nofun
  undelivered _ _ := rfl

section

variable {e : Entry} {r : InboxRecord} {o : Option InboxRecord}

theorem Fate.marked (fate : Fate e.now r e.call e.answer o) (marked : Marked r) :
    ∀ r', o = some r' → Marked r' := by
  generalize e.call = c, e.answer = a at fate
  rintro r' rfl
  cases fate with
  | untouched => exact marked
  | leased | acked | requeued => simp [Marked, leaseTo, Inbox.acked, requeue]

/-- The counter of a record goes up when a lease returns it. -/
theorem Fate.counted (fate : Fate e.now r e.call e.answer o) :
    ∀ r', o = some r' → r'.deliveryCount =
      if e.delivers r.id then successor32 r.deliveryCount else r.deliveryCount := by
  generalize e.call = c, answer : e.answer = a at fate
  rintro r' rfl
  cases fate with
  | untouched none =>
    rw [Entry.delivers_eq_false (answer ▸ none)]
    rfl
  | leased _ mem =>
    have returned : e.delivers r.id = true := Entry.delivers_eq_true answer mem rfl
    rw [returned]
    rfl
  | acked | requeued =>
    rw [Entry.delivers_eq_false fun rs he => nomatch answer.symm.trans he]
    rfl

end

/-- What a lease returns was waiting. -/
theorem Sound.delivers {s : Inbox} (h : s.Sound) {now : Timestamp} {c : Call} {id : EnvelopeId}
    (returned : (⟨now, c, s⟩ : Entry).delivers id = true) :
    ∃ r, s.records.get? id = some r ∧ r.state = .pending := by
  cases c with
  | lease consumer batch visibility =>
    simp only [Entry.delivers, Entry.answer, Call.answer, Call.run, Except.map, List.any_eq_true,
      decide_eq_true_eq] at returned
    obtain ⟨r, hr, rfl⟩ := returned
    obtain ⟨r₀, hr₀, waits, -⟩ := h.mem_lease hr
    exact ⟨r₀, hr₀, waits⟩
  | ack id' consumer =>
    rcases Call.ack_cases now s id' consumer with ⟨_, -, -, answer, -⟩ | ⟨-, _, answer, -⟩
    · simp [Entry.delivers, Entry.answer, answer] at returned
    · simp [Entry.delivers, Entry.answer, answer] at returned
  | append | reclaim | prune => cases returned

theorem Orderly.unused {h : List Entry} {s : Inbox} (o : Orderly h s) {c : Call}
    (fresh : Fresh h c) : ∀ id x, c = .append id x → s.records.get? id = none := by
  intro id x hc
  cases hr : s.records.get? id with
  | none => rfl
  | some r => exact absurd (o.known id r hr) (fresh id x hc)

theorem Orderly.snoc {h : List Entry} {s : Inbox} (o : Orderly h s) (now : Timestamp) {c : Call}
    (fresh : Fresh h c) : Orderly (h ++ [⟨now, c, s⟩]) (c.after now s) := by
  let e : Entry := ⟨now, c, s⟩
  have fate : ∀ id r₀, s.records.get? id = some r₀ →
      Fate e.now r₀ e.call e.answer ((c.after now s).records.get? id) := fun id r₀ hr₀ =>
    o.sound.fate hr₀ now fun x hc => absurd (o.unused fresh id x hc) (by rw [hr₀]; nofun)
  refine ⟨o.sound.after now (o.unused fresh), ?_, ?_, ?_, ?_⟩
  · intro id r hr
    rw [given_snoc, List.mem_append]
    rcases o.sound.stored hr with ⟨r₀, hr₀⟩ | ⟨x, rfl, answer, -⟩
    · exact Or.inl (o.known id r₀ hr₀)
    · exact Or.inr (by simp [Entry.given?, Entry.answer, answer])
  · intro id r hr
    rcases o.sound.stored hr with ⟨r₀, hr₀⟩ | ⟨x, rfl, -, rfl⟩
    · exact (fate id r₀ hr₀).marked (o.marked id r₀ hr₀) r hr
    · simp [Marked]
  · intro id r hr
    rw [deliveries_snoc]
    rcases o.sound.stored hr with ⟨r₀, hr₀⟩ | ⟨x, rfl, answer, rfl⟩
    · obtain rfl : r₀.id = id := o.sound.keyed id r₀ hr₀
      rw [(fate r₀.id r₀ hr₀).counted r hr, o.counted r₀.id r₀ hr₀]
      split_ifs
      · exact Nat.mod_add_mod _ _ _
      · rfl
    · simp [o.undelivered id (fresh id x rfl), Entry.delivers, Entry.answer, answer]
  · intro id hid
    rw [given_snoc, List.mem_append, not_or] at hid
    rw [deliveries_snoc, o.undelivered id hid.1]
    split_ifs with returned
    · obtain ⟨r, hr, -⟩ := o.sound.delivers returned
      exact absurd (o.known id r hr) hid.1
    · rfl

theorem Run.orderly {h : List Entry} {s : Inbox} (run : Run h s) : Orderly h s := by
  induction run with
  | nil => exact orderly_empty
  | snoc _ now c fresh ih => exact ih.snoc now fresh

/-- The last entry of a run is a step of its own. -/
theorem Run.of_snoc {h : List Entry} {e : Entry} {s : Inbox} (run : Run (h ++ [e]) s) :
    Run h e.before ∧ Fresh h e.call ∧ s = e.after := by
  generalize hh : h ++ [e] = h' at run
  cases run with
  | nil => simp at hh
  | snoc run now c fresh =>
    obtain ⟨rfl, he⟩ := List.append_inj' hh rfl
    cases he
    exact ⟨run, fresh, rfl⟩

theorem Run.of_cons_snoc {pre post : List Entry} {e z : Entry} {s : Inbox}
    (run : Run (pre ++ e :: (post ++ [z])) s) :
    Run (pre ++ e :: post) z.before ∧ Fresh (pre ++ e :: post) z.call ∧ s = z.after := by
  rw [← List.cons_append, ← List.append_assoc] at run
  exact run.of_snoc

/-- The inbox at any point of a run is itself the end of a run. -/
theorem Run.before {pre post : List Entry} {e : Entry} {s : Inbox}
    (run : Run (pre ++ e :: post) s) : Run pre e.before ∧ Fresh pre e.call := by
  induction post using List.reverseRecOn generalizing s with
  | nil => exact ⟨run.of_snoc.1, run.of_snoc.2.1⟩
  | append_singleton post z ih => exact ih run.of_cons_snoc.1

end Courier.Inbox
