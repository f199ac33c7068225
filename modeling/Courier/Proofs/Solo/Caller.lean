import Courier.Proofs.Solo.Alone
import Courier.Proofs.Worker

/-! A caller of an engine that runs no tasks. While the caller waits only the time moves, so a plan
that it carries out for one job has the stores to itself, as long as no scripted call takes back
leases. -/

namespace Courier

open Plan

/-- No scripted call takes back leases, and the materializer neither crashes nor moves the clock,
which it might move past the end of time. -/
structure Surroundings.Tame (s : Surroundings) : Prop where
  adapters : ∀ p turns, (p, Connection.scripted turns) ∈ s.connections →
    ∀ t ∈ turns, t.reclaims = false
  contents : ∀ turns, s.materializer = some turns →
    ∀ t ∈ turns, t.reclaims = false ∧ t.advance = none ∧ t.reply ≠ .crashed

namespace Surroundings

variable {s : Surroundings}

theorem Tame.takeAdapter (h : s.Tame) (i : Intent) : (s.takeAdapter i).1.reclaims = false ∧
    (s.takeAdapter i).2.Tame ∧ (s.takeAdapter i).2.faults = s.faults := by
  unfold Surroundings.takeAdapter
  split
  · exact ⟨rfl, h, rfl⟩
  · exact ⟨rfl, h, rfl⟩
  · exact ⟨rfl, h, rfl⟩
  · rename_i t rest found
    obtain ⟨l₁, l₂, split, -⟩ := List.lookup_eq_some_iff.1 found
    have turns := h.adapters i.platform (t :: rest) (by simp [split])
    refine ⟨turns t List.mem_cons_self, ⟨fun p ts mem => ?_, h.contents⟩, rfl⟩
    obtain ⟨⟨p', c⟩, old, same⟩ := List.mem_map.1 mem
    dsimp only at same
    split_ifs at same
    · cases same
      exact fun t' ht' => turns t' (List.mem_cons_of_mem _ ht')
    · cases same
      exact h.adapters _ _ old

theorem Tame.takeMaterializer (h : s.Tame) (i : Intent) :
    ((s.takeMaterializer i).1.reclaims = false ∧ (s.takeMaterializer i).1.advance = none ∧
        (s.takeMaterializer i).1.reply ≠ .crashed) ∧
      (s.takeMaterializer i).2.Tame ∧ (s.takeMaterializer i).2.faults = s.faults := by
  unfold Surroundings.takeMaterializer
  split
  · exact ⟨⟨rfl, rfl, nofun⟩, h, rfl⟩
  · exact ⟨⟨rfl, rfl, nofun⟩, h, rfl⟩
  · rename_i t rest found
    have turns := h.contents _ found
    refine ⟨turns t List.mem_cons_self, ⟨h.adapters, fun ts hts => ?_⟩, rfl⟩
    cases hts
    exact fun t' ht' => turns t' (List.mem_cons_of_mem _ ht')

theorem takeFault_scripts (c : StoreCall) (s : Surroundings) :
    (s.takeFault c).2.connections = s.connections ∧
      (s.takeFault c).2.materializer = s.materializer := by
  unfold takeFault
  split <;> exact ⟨rfl, rfl⟩

end Surroundings

namespace Engine

variable {e e' : Engine}

/-- The scripts of the world outside and the book of tasks are as before. -/
structure SameScripts (e e' : Engine) : Prop where
  connections : e'.surroundings.connections = e.surroundings.connections
  materializer : e'.surroundings.materializer = e.surroundings.materializer
  tasks : e'.tasks = e.tasks

theorem SameScripts.tame (h : SameScripts e e') (tame : e.surroundings.Tame) :
    e'.surroundings.Tame :=
  ⟨h.connections ▸ tame.adapters, h.materializer ▸ tame.contents⟩

theorem call_sameScripts {γ : Type} {c : StoreCall} {offline : Except Error γ}
    {body : Engine → Except Error γ × Engine} (h : ∀ e, SameScripts e (body e).2) (e : Engine) :
    SameScripts e (e.call c offline body).2 := by
  have kept := e.surroundings.takeFault_scripts c
  unfold call
  split_ifs
  · exact ⟨rfl, rfl, rfl⟩
  · generalize e.surroundings.takeFault c = t at kept
    obtain ⟨fault, s⟩ := t
    have on := h { e with surroundings := s }
    cases fault with
    | none =>
      exact ⟨on.connections.trans kept.1, on.materializer.trans kept.2, on.tasks⟩
    | fail | lost | crash => exact ⟨kept.1, kept.2, rfl⟩

theorem onQueue_sameScripts {γ : Type} (f : Queue → Except Error (γ × Queue)) (e : Engine) :
    SameScripts e (e.onQueue f).2 := by
  unfold onQueue
  split <;> exact ⟨rfl, rfl, rfl⟩

/-- What a worker asks for its job is answered at once, but for what is scripted, and leaves the
scripts alone. -/
theorem perform_serves {worker : String} {job : Job} {a : Action} (serves : a.Serves worker job)
    (own : a.isForeign = false) : ∃ r e', e.perform a = .reply r e' ∧ SameScripts e e' := by
  cases a with
  | drawUnit | materialize | callAdapter => cases own
  | renewLease | completeJob | releaseJob | deadLetterJob =>
    exact ⟨_, _, rfl, call_sameScripts (fun e => onQueue_sameScripts _ e) e⟩
  | beginAttempt | completeAttempt | clearAttempt | appendEnvelope =>
    exact ⟨_, _, rfl, call_sameScripts (fun e => ⟨rfl, rfl, rfl⟩) e⟩
  | _ => first | exact serves.elim | exact ⟨_, _, rfl, ⟨rfl, rfl, rfl⟩⟩

/-- A scripted call that takes back no leases lets time pass and does nothing else. -/
theorem play_tame {γ : Type} {t : Turn γ} (tame : t.reclaims = false) (overrun : γ) (e : Engine) :
    ∃ e₁, e.Meanwhile e₁ ∧ SameScripts e e₁ ∧
      ((∃ r, (t.advance = none → r = t.reply) ∧ e.play t overrun = .reply r e₁) ∨
        ∃ ms, e.play t overrun =
          .wait ⟨e₁.sleptMs + ms, false, false, none⟩ (fun _ e => (t.reply, e)) e₁) := by
  have quiet : endTurn t = fun e => (t.reply, e) := by
    funext e
    simp [endTurn, tame]
  unfold play
  split
  · rename_i stuck
    refine ⟨e, .refl e, ⟨rfl, rfl, rfl⟩, Or.inl ⟨overrun, fun still => ?_, rfl⟩⟩
    rw [still] at stuck
    cases stuck
  · rename_i e₁ moved
    have still : e.Meanwhile e₁ ∧ SameScripts e e₁ := by
      split at moved
      · obtain ⟨now, -, rfl⟩ := Option.map_eq_some_iff.1 moved
        exact ⟨⟨⟨fun _ => rfl, fun _ => rfl, fun _ => rfl⟩, rfl, rfl⟩, ⟨rfl, rfl, rfl⟩⟩
      · cases moved
        exact ⟨.refl e, ⟨rfl, rfl, rfl⟩⟩
    refine ⟨e₁, still.1, still.2, ?_⟩
    rw [quiet]
    cases t.sleepMs with
    | some ms => exact Or.inr ⟨ms, rfl⟩
    | none => exact Or.inl ⟨t.reply, fun _ => rfl, rfl⟩

theorem callAdapter_eq_play (i : Intent) (e : Engine) : e.callAdapter i =
    play (e.surroundings.takeAdapter i).1 (.crashed clockOverrun)
      { e with
        surroundings := (e.surroundings.takeAdapter i).2
        calls := if e.surroundings.isScripted i then e.calls ++ [i] else e.calls } := by
  unfold callAdapter
  split_ifs <;> rfl

end Engine

namespace Schedule

variable {α : Type} {e : Engine}

theorem settle_idle (idle : e.tasks.waiting = []) : settle ⟨e, []⟩ = ⟨e, []⟩ := by
  have settled : ∀ n, settleFor n ⟨e, []⟩ = ⟨e, []⟩ := by
    intro n
    cases n with
    | zero => rfl
    | succ n =>
      have book : ({ e.tasks with waiting := [] } : TaskBook) = e.tasks := by rw [← idle]
      simp [settleFor, adopt, runEach, idle, book]
  exact settled turnLength

/-- With no tasks about, a caller's wait only lets the time pass. -/
theorem await_idle (idle : e.tasks.waiting = []) (ms : Nat) :
    (await ⟨e.sleptMs + ms, false, false, none⟩ ⟨e, []⟩).2 =
      ⟨{ e with sleptMs := e.sleptMs + ms }, []⟩ := by
  rw [await, awaitFrom, settle_idle idle]
  cases ms with
  | zero => simp [Wait.over?]
  | succ ms =>
    have pending : (⟨e.sleptMs + (ms + 1), false, false, none⟩ : Wait).over? e = none := by
      simp [Wait.over?]
    have late : ¬ max (nextDeadline (e.sleptMs + (ms + 1)) []) (e.sleptMs + 1) <
        e.sleptMs + (ms + 1) := by
      simp [nextDeadline]
    simp only [pending, if_neg late]
    rfl

/-- A scripted call of the caller is answered in the end. -/
theorem run_play {a : Action} (next : a.Reply → Plan α) {t : Turn a.Reply} {overrun : a.Reply}
    {e₀ : Engine} (played : e.perform a = e₀.play t overrun) (tame : t.reclaims = false)
    (idle : e₀.tasks.waiting = []) : ∃ r e₁, (t.advance = none → r = t.reply) ∧
      e₀.Meanwhile e₁ ∧ e₀.SameScripts e₁ ∧ run (.step a next) ⟨e, []⟩ = run (next r) ⟨e₁, []⟩ := by
  obtain ⟨e₁, still, same, ⟨r, hr, hp⟩ | ⟨ms, hp⟩⟩ := Engine.play_tame tame overrun e₀
  · exact ⟨r, e₁, hr, still, same, by rw [run, played, hp]⟩
  · refine ⟨t.reply, { e₁ with sleptMs := e₁.sleptMs + ms }, fun _ => rfl,
      ⟨?_, still.unreachable, still.faults⟩, ⟨same.connections, same.materializer, same.tasks⟩, ?_⟩
    · exact ⟨still.stores.queue, still.stores.inbox, still.stores.attempts⟩
    · rw [run, played, hp]
      simp only [await_idle (same.tasks.symm ▸ idle)]

/-- The world outside answers the caller as its scripts say, in its own time. -/
theorem run_foreign {a : Action} (foreign : a.isForeign = true) (next : a.Reply → Plan α)
    (tame : e.surroundings.Tame) (idle : e.tasks.waiting = []) :
    ∃ r e₁, Deed.isCrash ⟨a, r⟩ = false ∧ e.Meanwhile e₁ ∧ e₁.surroundings.Tame ∧
      e₁.tasks.waiting = [] ∧ run (.step a next) ⟨e, []⟩ = run (next r) ⟨e₁, []⟩ := by
  -- what a call takes from its script leaves the stores alone
  have taken : ∀ (s : Surroundings) (calls : List Intent), s.faults = e.surroundings.faults →
      e.Meanwhile { e with surroundings := s, calls := calls } := fun s calls faults =>
    ⟨⟨fun _ => rfl, fun _ => rfl, fun _ => rfl⟩, rfl, faults⟩
  cases a with
  | drawUnit => exact ⟨Engine.middleUnit, e, rfl, .refl e, tame, idle, rfl⟩
  | materialize i =>
    obtain ⟨⟨reclaims, still, calm⟩, tame', faults⟩ := tame.takeMaterializer i
    have played : e.perform (.materialize i) = Engine.play (e.surroundings.takeMaterializer i).1
        .crashed { e with surroundings := (e.surroundings.takeMaterializer i).2 } := rfl
    obtain ⟨r, e₁, hr, passed, same, done⟩ := run_play next played reclaims idle
    have calm : Deed.isCrash ⟨.materialize i, r⟩ = false := by
      rw [← hr still] at calm
      cases r with
      | crashed => exact absurd rfl calm
      | _ => rfl
    exact ⟨r, e₁, calm, (taken _ e.calls faults).trans passed, same.tame tame',
      same.tasks ▸ idle, done⟩
  | callAdapter i =>
    obtain ⟨reclaims, tame', faults⟩ := tame.takeAdapter i
    obtain ⟨r, e₁, -, passed, same, done⟩ := run_play next (e.callAdapter_eq_play i) reclaims idle
    exact ⟨r, e₁, rfl, (taken _ _ faults).trans passed, same.tame tame', same.tasks ▸ idle, done⟩
  | _ => cases foreign

/-- One action of the caller for its job, and the time that passes with it. -/
theorem run_step {worker : String} {job : Job} {a : Action} (serves : a.Serves worker job)
    (next : a.Reply → Plan α) (tame : e.surroundings.Tame) (idle : e.tasks.waiting = []) :
    ∃ r e₁ e₂, e.Answers a r e₁ ∧ Deed.isCrash ⟨a, r⟩ = false ∧ e₁.Meanwhile e₂ ∧
      e₂.surroundings.Tame ∧ e₂.tasks.waiting = [] ∧
      run (.step a next) ⟨e, []⟩ = run (next r) ⟨e₂, []⟩ := by
  by_cases foreign : a.isForeign = true
  · obtain ⟨r, e₁, calm, passed, tame', idle', done⟩ := run_foreign foreign next tame idle
    exact ⟨r, e, e₁, Or.inl ⟨foreign, rfl⟩, calm, passed, tame', idle', done⟩
  · have own : a.isForeign = false := by simpa using foreign
    obtain ⟨r, e₁, done, same⟩ := Engine.perform_serves (e := e) serves own
    have calm : Deed.isCrash ⟨a, r⟩ = false := by
      cases a <;> first | rfl | cases own
    exact ⟨r, e₁, e₁, Or.inr ⟨own, done⟩, calm, .refl e₁, same.tame tame, same.tasks ▸ idle,
      by rw [run, done]⟩

/-- A plan of the caller for its job has the stores to itself, from its start to its end. -/
theorem run_alone {worker : String} {job : Job} {p q : Plan α} {e₀ : Engine} {past : List Deed}
    (alone : Alone p e₀ past e q) (serves : q.Uses (Action.Serves worker job))
    (tame : e.surroundings.Tame) (idle : e.tasks.waiting = []) : ∃ more,
      Alone p e₀ (past ++ more) (run q ⟨e, []⟩).2.engine (.done (run q ⟨e, []⟩).1) ∧
        ∀ d ∈ more, d.isCrash = false := by
  induction q generalizing e past with
  | done a => exact ⟨[], by rwa [List.append_nil], List.forall_mem_nil _⟩
  | step a next ih =>
    obtain ⟨r, e₁, e₂, answers, calm, passed, tame', idle', done⟩ := run_step serves.1 next tame idle
    obtain ⟨more, ended, calm'⟩ := ih r (alone.act answers passed) (serves.2 r) tame' idle'
    rw [List.append_assoc] at ended
    rw [done]
    exact ⟨_, ended, List.forall_mem_cons.2 ⟨calm, calm'⟩⟩

end Schedule

end Courier
