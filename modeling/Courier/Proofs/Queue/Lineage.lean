import Mathlib.Data.List.Induction
import Courier.Proofs.Key
import Courier.Proofs.Queue.Fate
import Courier.Proofs.Queue.WellFormed

/-! Dead letters over whole runs, and the jobs that replays start. A dead letter is never lost and
is decided once; a job has a parent only by the replay that decided its parent, so a dead letter has
one child at most, however many generations of children die and are replayed in turn. -/

namespace Courier.Queue

/-- Callers bring new jobs undecided and without a parent, and leave the decision about the jobs
that they bury to an operator. -/
def Call.IsPlain : Call → Prop
  | enqueue j => j.dlqState = none ∧ j.parent = none
  | moveToDlq _ _ entry _ => entry = .awaitingManualAction
  | _ => True

def Plain (h : List Entry) : Prop := ∀ e ∈ h, e.call.IsPlain

instance : (c : Call) → Decidable c.IsPlain
  | .enqueue j => inferInstanceAs (Decidable (j.dlqState = none ∧ j.parent = none))
  | .moveToDlq _ _ entry _ => inferInstanceAs (Decidable (entry = .awaitingManualAction))
  | .lease .. | .heartbeat .. | .complete .. | .release .. | .reclaim | .prune _ | .replay ..
  | .resolve .. => inferInstanceAs (Decidable True)

instance (h : List Entry) : Decidable (Plain h) :=
  inferInstanceAs (Decidable (∀ e ∈ h, e.call.IsPlain))

theorem Plain.undecided {h : List Entry} (plain : Plain h) : Undecided h := by
  intro e he
  have := plain e he
  cases hc : e.call with
  | enqueue j =>
    rw [hc] at this
    simp [Call.isDecided, this.1]
  | _ => rfl

/-- A decision about a dead letter as it may be found later: the same, or taken since. -/
inductive Decides : Option DlqState → Option DlqState → Prop where
  | same (entry : Option DlqState) : Decides entry entry
  | taken {entry : DlqState} : entry.isClosed = true →
      Decides (some .awaitingManualAction) (some entry)

theorem Decides.trans {a b c : Option DlqState} (h : Decides a b) (h' : Decides b c) :
    Decides a c := by
  cases h with
  | same => exact h'
  | taken closed =>
    cases h' with
    | same => exact .taken closed
    | taken => cases closed

/-- Once taken, a decision stays. -/
theorem Decides.eq_of_closed {entry : DlqState} {b : Option DlqState} (h : Decides (some entry) b)
    (closed : entry.isClosed = true) : b = some entry := by
  cases h with
  | same => rfl
  | taken => cases closed

/-- A dead letter stays one, and the decision about it is taken once. -/
theorem Fate.stays_dead {now : Timestamp} {id : JobId} {j : Job} {c : Call} {a : Answer}
    {o : Option Job} (h : Fate now id j c a o) (hj : j.state = .dlq) (hs : Sound id j) :
    ∃ k, o = some k ∧ k.state = .dlq ∧ Decides j.dlqState k.dlqState := by
  have not_leased : j.state ≠ .leased := by
    rw [hj]
    nofun
  cases h with
  | untouched => exact ⟨j, rfl, hj, .same _⟩
  | leased he =>
    rw [isEligible_queued he] at hj
    cases hj
  | renewed hl | completed hl | released hl | buried hl => exact absurd hl not_leased
  | requeued he => exact absurd (isExpired_leased he) not_leased
  | pruned hp => simp [isPrunable, hj] at hp
  | replayed _ hd =>
    refine ⟨_, rfl, hj, ?_⟩
    rw [hd]
    exact .taken rfl
  | @resolved entry _ he ho =>
    refine ⟨_, rfl, hj, ?_⟩
    obtain ⟨s, hd⟩ := Option.isSome_iff_exists.1 (hs.decision.2 hj)
    have open_ : s = .awaitingManualAction := by
      cases s with
      | awaitingManualAction => rfl
      | terminal | replayed | resolved => cases ho _ hd
    rw [hd, open_]
    refine .taken ?_
    rcases he with rfl | rfl <;> rfl

/-- The last entry of a run is a step of its own. -/
theorem Run.of_snoc {h : List Entry} {e : Entry} {q : Queue} (run : Run (h ++ [e]) q) :
    Run h e.before ∧ Fresh h e.call ∧ q = e.after := by
  generalize hh : h ++ [e] = h' at run
  cases run with
  | nil => simp at hh
  | snoc run now c fresh =>
    obtain ⟨rfl, he⟩ := List.append_inj' hh rfl
    cases he
    exact ⟨run, fresh, rfl⟩

/-- A history leads to one queue only. -/
theorem Run.unique {h : List Entry} {q q' : Queue} (run : Run h q) (run' : Run h q') : q = q' := by
  rcases List.eq_nil_or_concat h with rfl | ⟨h, e, rfl⟩
  · have only : ∀ {h : List Entry} {q : Queue}, Run h q → h = [] → q = empty := by
      intro h q run hh
      cases run with
      | nil => rfl
      | snoc => simp at hh
    rw [only run rfl, only run' rfl]
  · rw [List.concat_eq_append] at run run'
    rw [run.of_snoc.2.2, run'.of_snoc.2.2]

/-- The run goes on with each of its entries. -/
theorem Run.upTo {pre post : List Entry} {e : Entry} {q : Queue}
    (run : Run (pre ++ e :: post) q) : Run (pre ++ [e]) e.after :=
  run.before.1.snoc e.now e.call run.before.2

/-- A dead letter is there and dead after all calls to come, and decided once at most. -/
theorem Run.buried {pre post : List Entry} {q₀ q : Queue} (start : Run pre q₀)
    (run : Run (pre ++ post) q) (plain : Plain (pre ++ post)) {id : JobId} {j : Job}
    (hj : q₀.get? id = some j) (dead : j.state = .dlq) :
    ∃ k, q.get? id = some k ∧ k.state = .dlq ∧ Decides j.dlqState k.dlqState := by
  induction post using List.reverseRecOn generalizing q with
  | nil =>
    rw [List.append_nil] at run
    rw [← start.unique run]
    exact ⟨j, hj, dead, .same _⟩
  | append_singleton post e ih =>
    rw [← List.append_assoc] at run plain
    obtain ⟨before, fresh, rfl⟩ := run.of_snoc
    obtain ⟨k, hk, hd, decides⟩ := ih before fun x hx => plain x (List.mem_append_left _ hx)
    have sound := (before.wellFormed fun x hx =>
      plain.undecided x (List.mem_append_left _ hx)).sound id k hk
    rcases e.call.after_cases e.now e.before with ⟨_, -, same⟩ | ⟨a, -, change⟩
    · exact ⟨k, by rw [Entry.after, same, hk], hd, decides⟩
    · have old : e.call.newId? ≠ some id := fun hid => by
        rw [before.get?_fresh fresh hid] at hk
        cases hk
      obtain ⟨l, hl, hd', decides'⟩ := (change.fate before.keyed hk old).stays_dead hd sound
      exact ⟨l, hl, hd', decides.trans decides'⟩

/-- A job comes to be a dead letter by being buried. -/
theorem Fate.dies {now : Timestamp} {id : JobId} {j k : Job} {c : Call} {a : Answer}
    (h : Fate now id j c a (some k)) (dead : k.state = .dlq) : j.state = .dlq ∨
      ∃ worker entry reason, c = .moveToDlq id worker entry reason ∧ k.dlqState = some entry := by
  generalize ho : some k = o at h
  cases h with
  | untouched => cases ho; exact Or.inl dead
  | renewed hl =>
    cases ho
    rw [show j.state = .dlq from dead] at hl
    cases hl
  | buried => cases ho; exact Or.inr ⟨_, _, _, rfl, rfl⟩
  | replayed hd | resolved hd => exact Or.inl hd
  | leased | completed | released | requeued => cases ho; cases dead
  | pruned => cases ho

/-- A job that was not there has been enqueued, or is the child of a dead letter that awaited a
decision and is replayed by the same call. -/
theorem Change.creates {now : Timestamp} {q q' : Queue} {c : Call} {a : Answer}
    (h : Change now q c a q') (hq : q.Keyed) {id : JobId} (absent : q.get? id = none) {k : Job}
    (hk : q'.get? id = some k) :
    (∃ j, c = .enqueue j ∧ k = Queue.takenIn now j) ∨
      ∃ parent p, c = .replay parent id ∧ q.get? parent = some p ∧ p.state = .dlq ∧
        p.dlqState = some .awaitingManualAction ∧ k = p.replayChild id now ∧
        q'.get? parent = some (close .replayed now p) := by
  have fresh : c.newId? = some id := by
    rcases h.stored hq hk with ⟨j, hj⟩ | ⟨fresh, -⟩
    · rw [absent] at hj
      cases hj
    · exact fresh
  have unchanged : q' = q → False := by
    rintro rfl
    rw [absent] at hk
    cases hk
  cases h with
  | merged | replayedBefore => exact (unchanged rfl).elim
  | @takenIn j =>
    cases fresh
    rw [get?_takeIn, if_pos (show j.id = (Queue.takenIn now j).id from rfl)] at hk
    exact Or.inl ⟨j, rfl, (Option.some.inj hk).symm⟩
  | @replayMerged parent child active p hp =>
    cases fresh
    have other : id ≠ parent := fun he => by
      rw [he, hp] at absent
      cases absent
    rw [get?_put, show (close .replayed now p).id = parent from hq parent p hp, if_neg other,
      absent] at hk
    cases hk
  | @replayed parent child p hp dead awaits =>
    cases fresh
    have other : parent ≠ id := fun he => by
      rw [← he, hp] at absent
      cases absent
    have close_id : (close .replayed now p).id = parent := hq parent p hp
    rw [get?_takeIn, if_pos (show id = (p.replayChild id now).id from rfl)] at hk
    refine Or.inr ⟨parent, p, rfl, hp, dead, awaits, (Option.some.inj hk).symm, ?_⟩
    rw [get?_takeIn, show (p.replayChild id now).id = id from rfl, if_neg other, get?_put,
      if_pos close_id.symm]
  | _ => cases fresh

namespace Entry

/-- The call puts a job into the queue that was not there. -/
def Creates (e : Entry) (c : Job) : Prop :=
  e.before.get? c.id = none ∧ e.after.get? c.id = some c

/-- The call replays the dead letter `p`, which awaited a decision, as the new job `c`. -/
structure Replays (e : Entry) (p c : Job) : Prop where
  call : e.call = .replay p.id c.id
  stored : e.before.get? p.id = some p
  dead : p.state = .dlq
  awaits : p.dlqState = some .awaitingManualAction
  decided : ∃ k, e.after.get? p.id = some k ∧ k.state = .dlq ∧ k.dlqState = some .replayed
  waits : c.state = .queued
  untried : c.attemptCount = 0
  version : p.version < 2 ^ 32 - 1 → c.version = p.version + 1
  parent : c.parent = some p.id

theorem Creates.newId {e : Entry} {c : Job} (h : e.Creates c) (hq : e.before.Keyed) :
    e.call.newId? = some c.id := by
  rcases e.call.after_cases e.now e.before with ⟨_, -, same⟩ | ⟨a, -, change⟩
  · have := h.2
    rw [after, same, h.1] at this
    cases this
  · rcases change.creates hq h.1 h.2 with ⟨j, hc, hj⟩ | ⟨parent, p, hc, -⟩
    · rw [hc, hj]
      rfl
    · rw [hc]
      rfl

/-- A call creates one job at most. -/
theorem Creates.unique {e : Entry} {c c' : Job} (h : e.Creates c) (h' : e.Creates c')
    (hq : e.before.Keyed) : c' = c := by
  have same := (h'.newId hq).symm.trans (h.newId hq)
  have stored := h'.2
  rw [Option.some.inj same, h.2] at stored
  exact (Option.some.inj stored).symm

/-- Children come from replays only. -/
theorem Creates.replays {e : Entry} {c : Job} (h : e.Creates c) (hq : e.before.Keyed)
    (plain : e.call.IsPlain) {parent : JobId} (child : c.parent = some parent) :
    ∃ p, p.id = parent ∧ e.Replays p c := by
  rcases e.call.after_cases e.now e.before with ⟨_, -, same⟩ | ⟨a, -, change⟩
  · have := h.2
    rw [after, same, h.1] at this
    cases this
  · rcases change.creates hq h.1 h.2 with ⟨j, hc, hj⟩ | ⟨parent', p, hc, hp, dead, awaits, hj, hp'⟩
    · rw [hc] at plain
      rw [hj, show (Queue.takenIn e.now j).parent = j.parent from rfl, plain.2] at child
      cases child
    · have hid := hq parent' p hp
      subst hid
      have hparent : p.id = parent := by
        rw [hj] at child
        exact Option.some.inj child
      refine ⟨p, hparent, ?_⟩
      constructor
      case call => exact hc
      case stored => exact hp
      case dead => exact dead
      case awaits => exact awaits
      case decided => exact ⟨_, hp', dead, rfl⟩
      case parent => rw [child, hparent]
      case waits => rw [hj]; rfl
      case untried => rw [hj]; rfl
      case version =>
        intro small
        rw [hj]
        exact Nat.mod_eq_of_lt (Nat.succ_lt_of_lt_pred small)

end Entry

/-- Two places in one history are the same place, or one comes before the other. -/
theorem places {α : Type} {pre post pre' post' : List α} {e e' : α}
    (h : pre ++ e :: post = pre' ++ e' :: post') :
    (pre' = pre ∧ e' = e) ∨ (∃ mid, pre' = pre ++ e :: mid) ∨ ∃ mid, pre = pre' ++ e' :: mid := by
  rcases List.append_eq_append_iff.1 h with ⟨mid, hpre, hmid⟩ | ⟨mid, hpre, hmid⟩
  all_goals
    cases mid with
    | nil => simp_all
    | cons => simp_all

section Created

variable {pre mid : List Entry} {e e' : Entry} {c c' p p' : Job}

/-- An id is used for one new job only. -/
theorem Run.not_created_again (run : Run (pre ++ e :: mid) e'.before)
    (fresh : Fresh (pre ++ e :: mid) e'.call) (created : e.Creates c) (created' : e'.Creates c') :
    c'.id ≠ c.id := by
  intro same
  have taken : c.id ∈ accepted (pre ++ [e] ++ mid) := by
    rw [accepted, List.filterMap_append]
    exact List.mem_append_left _ (run.upTo.stored_accepted created.2)
  rw [List.append_assoc, ← same] at taken
  exact fresh c'.id (created'.newId run.keyed) taken

/-- A dead letter is replayed as one new job only. -/
theorem Run.not_replayed_again (run : Run (pre ++ e :: mid) e'.before)
    (plain : Plain (pre ++ e :: mid)) (replayed : e.Replays p c) (replayed' : e'.Replays p' c') :
    p'.id ≠ p.id := by
  intro same
  obtain ⟨k, hk, dead, decided⟩ := replayed.decided
  have upTo := run.upTo
  rw [List.append_cons] at run plain
  obtain ⟨l, hl, -, decides⟩ := upTo.buried run plain hk dead
  rw [decided] at decides
  have awaits := replayed'.awaits
  rw [← same, replayed'.stored] at hl
  cases hl
  rw [decides.eq_of_closed rfl] at awaits
  cases awaits

end Created

/-- A dead letter that was not one before awaits a decision. -/
theorem Run.buried_undecided {h : List Entry} {e : Entry} (run : Run (h ++ [e]) e.after)
    (plain : Plain (h ++ [e])) {id : JobId} {j : Job} (hj : e.after.get? id = some j)
    (dead : j.state = .dlq) (alive : ∀ k, e.before.get? id = some k → k.state ≠ .dlq) :
    j.dlqState = some .awaitingManualAction := by
  have hplain : e.call.IsPlain := plain e (by simp)
  have before := run.of_snoc.1
  rcases e.call.after_cases e.now e.before with ⟨_, -, same⟩ | ⟨a, -, change⟩
  · rw [Entry.after, same] at hj
    exact absurd dead (alive j hj)
  · cases hk : e.before.get? id with
    | none =>
      have sound := (run.wellFormed plain.undecided).sound id j hj
      obtain ⟨entry, decided⟩ := Option.isSome_iff_exists.1 (sound.decision.2 dead)
      rcases change.creates before.keyed hk hj with ⟨j', hc, rfl⟩ | ⟨_, p, -, -, -, -, rfl, -⟩
      · rw [hc] at hplain
        rw [show (Queue.takenIn e.now j').dlqState = j'.dlqState from rfl, hplain.1] at decided
        cases decided
      · cases dead
    | some k =>
      have old : e.call.newId? ≠ some id := fun hid => by
        rw [before.get?_fresh run.of_snoc.2.1 hid] at hk
        cases hk
      have fate := change.fate before.keyed hk old
      rw [show e.call.after e.now e.before = e.after from rfl, hj] at fate
      rcases fate.dies dead with was | ⟨worker, entry, reason, hc, decided⟩
      · exact absurd was (alive k hk)
      · rw [hc] at hplain
        rw [decided, show entry = .awaitingManualAction from hplain]

/-- New jobs that share a parent or a key are one job. -/
theorem Run.created_once {h : List Entry} {q : Queue} (run : Run h q) (plain : Plain h)
    {pre post pre' post' : List Entry} {e e' : Entry} {c c' : Job} (he : h = pre ++ e :: post)
    (he' : h = pre' ++ e' :: post') (created : e.Creates c) (created' : e'.Creates c')
    (shared : (∃ parent, c.parent = some parent ∧ c'.parent = some parent) ∨ c.id = c'.id) :
    pre' = pre ∧ c' = c := by
  have child : ∀ {pre post e c parent}, h = pre ++ e :: post → e.Creates c →
      c.parent = some parent → ∃ p, p.id = parent ∧ e.Replays p c := by
    intro pre post e c parent he created child
    rw [he] at run plain
    exact created.replays run.before.1.keyed (plain e (by simp)) child
  have later : ∀ {pre mid post post' : List Entry} {e e' : Entry} {c c' : Job},
      h = pre ++ e :: post → h = (pre ++ e :: mid) ++ e' :: post' → e.Creates c → e'.Creates c' →
      ((∃ parent, c.parent = some parent ∧ c'.parent = some parent) ∨ c.id = c'.id) → False := by
    intro pre mid post post' e e' c c' he he' created created' shared
    obtain ⟨before, fresh⟩ := (he' ▸ run).before
    rcases shared with ⟨parent, hc, hc'⟩ | same
    · obtain ⟨p, hp, replays⟩ := child he created hc
      obtain ⟨p', hp', replays'⟩ := child he' created' hc'
      have plain' : Plain (pre ++ e :: mid) := fun x hx => plain x (he' ▸ List.mem_append_left _ hx)
      exact before.not_replayed_again plain' replays replays' (hp'.trans hp.symm)
    · exact before.not_created_again fresh created created' same.symm
  rcases places (he.symm.trans he') with ⟨rfl, rfl⟩ | ⟨mid, rfl⟩ | ⟨mid, rfl⟩
  · rw [he] at run
    exact ⟨rfl, created.unique created' run.before.1.keyed⟩
  · exact (later he he' created created' shared).elim
  · refine (later he' he created' created ?_).elim
    exact shared.imp (fun ⟨parent, hc, hc'⟩ => ⟨parent, hc', hc⟩) Eq.symm

/-- A dead letter begins undecided, is there and dead ever after, and is decided once at most. A job
has a parent by the replay that decided its parent and by nothing else; it waits and is untried
then, has the next version and a key of its own, and no other job ever has that parent. -/
theorem Run.dead_letter_lineage {h : List Entry} {q : Queue} (run : Run h q) (plain : Plain h) :
    (∀ pre e post id j, h = pre ++ e :: post → e.after.get? id = some j → j.state = .dlq →
      (∃ entry, j.dlqState = some entry) ∧
      ((∀ k, e.before.get? id = some k → k.state ≠ .dlq) →
        j.dlqState = some .awaitingManualAction) ∧
      ∃ k, q.get? id = some k ∧ k.state = .dlq ∧ Decides j.dlqState k.dlqState) ∧
    ∀ pre e post c, h = pre ++ e :: post → e.Creates c →
      (∀ parent, c.parent = some parent →
        (∃ p, p.id = parent ∧ e.Replays p c) ∧
        ∀ pre' e' post' c', h = pre' ++ e' :: post' → e'.Creates c' → c'.parent = some parent →
          pre' = pre ∧ c' = c) ∧
      ∀ pre' e' post' c', h = pre' ++ e' :: post' → e'.Creates c' →
        c'.attemptKey = c.attemptKey → pre' = pre ∧ c' = c := by
  refine ⟨?dead, ?born⟩
  case dead =>
    intro pre e post id j he hj dead
    subst he
    have plain' : Plain (pre ++ [e]) := fun x hx => plain x (by simp at hx ⊢; tauto)
    have sound := (run.upTo.wellFormed plain'.undecided).sound id j hj
    refine ⟨Option.isSome_iff_exists.1 (sound.decision.2 dead), ?_, ?_⟩
    · intro alive
      exact run.upTo.buried_undecided plain' hj dead alive
    · exact run.upTo.buried (by simpa using run) (by simpa using plain) hj dead
  case born =>
    intro pre e post c he created
    refine ⟨fun parent child => ⟨?_, ?_⟩, ?_⟩
    · subst he
      exact created.replays run.before.1.keyed (plain e (by simp)) child
    · intro pre' e' post' c' he' created' child'
      exact run.created_once plain he he' created created' (Or.inl ⟨parent, child, child'⟩)
    · intro pre' e' post' c' he' created' key
      exact run.created_once plain he he' created created' (Or.inr (Job.attemptKey_inj key).2.symm)

/-- A job dies and is started again, and so is the job that this starts; the third of them ends. -/
def threeLives : List (Timestamp × Call) :=
  [(.epoch, .enqueue (sampleJob 1 "i-1")),
    (.epoch, .lease "w-1" 8 (.ofSeconds 60)),
    (.epoch, .moveToDlq ⟨.ofNat 1⟩ "w-1" .awaitingManualAction "boom"),
    (.epoch, .replay ⟨.ofNat 1⟩ ⟨.ofNat 2⟩),
    (.epoch, .lease "w-1" 8 (.ofSeconds 60)),
    (.epoch, .moveToDlq ⟨.ofNat 2⟩ "w-1" .awaitingManualAction "boom"),
    (.epoch, .replay ⟨.ofNat 1⟩ ⟨.ofNat 3⟩),
    (.epoch, .replay ⟨.ofNat 2⟩ ⟨.ofNat 3⟩),
    (.epoch, .lease "w-2" 8 (.ofSeconds 60)),
    (.epoch, .complete ⟨.ofNat 3⟩ "w-2"),
    (.clamp 90000000000, .prune (.clamp 80000000000))]

theorem dead_letter_lineage_threeLives : ∃ h q pre e post c, Run h q ∧ Plain h ∧
    h = pre ++ e :: post ∧ e.Creates c ∧ c.parent = some ⟨.ofNat 2⟩ ∧ c.version = 3 ∧
    (∃ p, p.id = ⟨.ofNat 2⟩ ∧ e.Replays p c) ∧
    ∃ k, q.get? ⟨.ofNat 2⟩ = some k ∧ k.state = .dlq ∧ k.dlqState = some .replayed := by
  have run := @run_entries threeLives (by decide +kernel)
  have plain : Plain (entries empty threeLives) := by decide +kernel
  obtain ⟨-, born⟩ := run.dead_letter_lineage plain
  have split : entries empty threeLives = (entries empty threeLives).take 7 ++
      ⟨.epoch, .replay ⟨.ofNat 2⟩ ⟨.ofNat 3⟩, afterAll empty (threeLives.take 7)⟩ ::
        (entries empty threeLives).drop 8 := rfl
  have absent : ((afterAll empty (threeLives.take 7)).get? ⟨.ofNat 3⟩).isNone := by
    decide +kernel
  have stored : ((afterAll empty (threeLives.take 8)).get? ⟨.ofNat 3⟩).map
      (fun c => (c.id, c.parent, c.version)) = some (⟨.ofNat 3⟩, some ⟨.ofNat 2⟩, 3) := by
    decide +kernel
  have decided : ((afterAll empty threeLives).get? ⟨.ofNat 2⟩).map
      (fun k => (k.state, k.dlqState)) = some (.dlq, some .replayed) := by
    decide +kernel
  simp only [Option.map_eq_some_iff, Prod.mk.injEq] at stored decided
  obtain ⟨c, hc, hid, child, version⟩ := stored
  obtain ⟨k, hk, dead, replayed⟩ := decided
  have created : Entry.Creates
      ⟨.epoch, .replay ⟨.ofNat 2⟩ ⟨.ofNat 3⟩, afterAll empty (threeLives.take 7)⟩ c :=
    ⟨by rw [hid]; exact Option.isNone_iff_eq_none.1 absent, by rw [hid]; exact hc⟩
  exact ⟨_, _, _, _, _, c, run, plain, split, created, child, version,
    ((born _ _ _ c split created).1 _ child).1, k, hk, dead, replayed⟩

end Courier.Queue
