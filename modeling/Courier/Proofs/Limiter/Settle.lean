import Courier.Proofs.Limiter.Run

/-! Looking at the use of a limiter trims its windows. That is no matter from then on: what a
trimmed window lacks would be forgotten by the next call anyway, so a limiter that was looked at and
one that was not give the same answers and stay so alike under any further calls. -/

namespace Courier

namespace Window

variable {horizon horizon' now start t : Timestamp} {limit : WindowLimit} {w w' : Window}

/-- `w'` is `w` without some of its first times, none of which is after the horizon. -/
def TrimmedTo (horizon : Timestamp) (w w' : Window) : Prop :=
  ∃ old, w = old ++ w' ∧ ∀ t ∈ old, t ≤ horizon

namespace TrimmedTo

theorem refl (horizon : Timestamp) (w : Window) : TrimmedTo horizon w w := ⟨[], rfl, by simp⟩

theorem of_trim (limit : WindowLimit) (now : Timestamp) (w : Window) :
    TrimmedTo (now.sub limit.window) w (w.trim limit now) := by
  refine ⟨w.takeWhile fun t => t ≤ now.sub limit.window, List.takeWhile_append_dropWhile.symm, ?_⟩
  intro t ht
  simpa using List.all_eq_true.1 List.all_takeWhile t ht

/-- A later trim forgets what the earlier one has forgotten. -/
theorem trim (h : TrimmedTo horizon w w') (late : horizon ≤ now.sub limit.window) :
    w.trim limit now = w'.trim limit now := by
  obtain ⟨old, rfl, past⟩ := h
  rw [Window.trim, List.dropWhile_append_of_pos]
  · rfl
  · intro t ht
    simpa using Timestamp.le_trans (past t ht) late

theorem remove (h : TrimmedTo horizon w w') (t : Timestamp) :
    TrimmedTo horizon (w.remove t) (w'.remove t) := by
  obtain ⟨old, rfl, past⟩ := h
  by_cases ht : t ∈ w'
  · refine ⟨old, ?_, past⟩
    rw [Window.remove, Window.remove, List.reverse_append,
      List.erase_append_left _ (List.mem_reverse.2 ht), List.reverse_append, List.reverse_reverse]
  · refine ⟨Window.remove t old, ?_, fun t' ht' => past t' ((remove_sublist t old).subset ht')⟩
    have absent : t ∉ w'.reverse := by simpa using ht
    rw [Window.remove, Window.remove, Window.remove, List.reverse_append,
      List.erase_append_right _ absent, List.erase_of_not_mem absent, List.reverse_append,
      List.reverse_reverse]

end TrimmedTo

/-- The windows are alike for all times from `start` on: the same without a limit, and with one
the same but for times that have left the window by then. -/
def AlikeFrom (limit : Option WindowLimit) (start : Timestamp) (w w' : Window) : Prop :=
  match limit with
  | none => w = w'
  | some l => TrimmedTo (start.sub l.window) w w'

namespace AlikeFrom

variable {limit : Option WindowLimit}

theorem refl (limit : Option WindowLimit) (start : Timestamp) (w : Window) :
    AlikeFrom limit start w w := by
  cases limit with
  | none => rfl
  | some l => exact TrimmedTo.refl _ w

theorem of_consult (limit : Option WindowLimit) (now : Timestamp) (w : Window) :
    AlikeFrom limit now w (Limiter.consult limit now w).1 := by
  cases limit with
  | none => rfl
  | some l => exact TrimmedTo.of_trim l now w

theorem consult (h : AlikeFrom limit start w w') (late : start ≤ now) :
    Limiter.consult limit now w = Limiter.consult limit now w' := by
  cases limit with
  | none => exact congrArg (Limiter.consult none now) h
  | some l =>
    have same := TrimmedTo.trim h (Timestamp.sub_le_sub late l.window)
    rw [Limiter.consult, Limiter.consult, same]

theorem remove (h : AlikeFrom limit start w w') (t : Timestamp) :
    AlikeFrom limit start (w.remove t) (w'.remove t) := by
  cases limit with
  | none => exact congrArg (Window.remove t) h
  | some l => exact TrimmedTo.remove h t

end AlikeFrom

end Window

namespace Limiter

variable {c : RateLimitConfig} {start now : Timestamp} {s s' : Limiter}

/-- All windows are alike for all times from `start` on. -/
structure AlikeFrom (c : RateLimitConfig) (start : Timestamp) (s s' : Limiter) : Prop where
  overall : Window.AlikeFrom c.overall start s.overall s'.overall
  routes : ∀ r, Window.AlikeFrom (c.forRoute r) start (s.routeWindow r) (s'.routeWindow r)
  keys : s.routes.keys = s'.routes.keys

/-- The limiter after calls that were made one after the other. -/
def after (c : RateLimitConfig) (s : Limiter) (calls : List Call) : Limiter :=
  calls.foldl (fun s call => (call.run c s).2) s

/-- The call is not made before `start`. Room may be given back that was taken at any time. -/
def Call.NotBefore (start : Timestamp) : Call → Prop
  | request _ now | usage now => start ≤ now
  | refund _ _ => True

namespace AlikeFrom

theorem refl (c : RateLimitConfig) (start : Timestamp) (s : Limiter) : AlikeFrom c start s s :=
  ⟨.refl _ _ _, fun _ => .refl _ _ _, rfl⟩

theorem of_settle (c : RateLimitConfig) (now : Timestamp) (s : Limiter) :
    AlikeFrom c now s (s.settle c now) where
  overall := .of_consult c.overall now s.overall
  routes r := by
    rw [routeWindow_settle]
    exact .of_consult _ now _
  keys := (Table.keys_mapValues _ _).symm

theorem settle (h : AlikeFrom c start s s') (late : start ≤ now) :
    s.settle c now = s'.settle c now := by
  have overall : (s.settle c now).overall = (s'.settle c now).overall :=
    congrArg Prod.fst (h.overall.consult late)
  have windows : ∀ r, (s.settle c now).routeWindow r = (s'.settle c now).routeWindow r := by
    intro r
    rw [routeWindow_settle, routeWindow_settle, (h.routes r).consult late]
  have keys : (s.settle c now).routes.keys = (s'.settle c now).routes.keys := by
    rw [Limiter.settle, Limiter.settle, Table.keys_mapValues, Table.keys_mapValues, h.keys]
  have routes : (s.settle c now).routes = (s'.settle c now).routes :=
    Table.ext_getD [] keys windows
  exact congrArg₂ Limiter.mk overall routes

theorem usage (h : AlikeFrom c start s s') (late : start ≤ now) :
    s.usage c now = s'.usage c now := by
  rw [Limiter.usage, Limiter.usage, h.settle late]

theorem refund (h : AlikeFrom c start s s') (route : String) (taken : Timestamp) :
    AlikeFrom c start (s.refund c route taken) (s'.refund c route taken) where
  overall := by
    rw [Limiter.refund, Limiter.refund]
    split_ifs
    · exact h.overall.remove taken
    · exact h.overall
  routes r := by
    rw [routeWindow_refund, routeWindow_refund]
    split_ifs
    · exact (h.routes r).remove taken
    · exact h.routes r
  keys := by
    rw [Limiter.refund, Limiter.refund, Table.keys_modify, Table.keys_modify, h.keys]

/-- The same windows are stored in both; the other routes are as before. -/
theorem insert (h : AlikeFrom c start s s') (all own : Window) (route : String) :
    AlikeFrom c start ⟨all, s.routes.insert route own⟩ ⟨all, s'.routes.insert route own⟩ where
  overall := .refl _ _ _
  routes r := by
    rw [routeWindow_insert, routeWindow_insert]
    split_ifs
    · exact .refl _ _ _
    · exact h.routes r
  keys := by rw [Table.keys_insert, Table.keys_insert, h.keys]

/-- Both give the same decision, with the same wait. -/
theorem request (h : AlikeFrom c start s s') (late : start ≤ now) (route : String) :
    (s.request c route now).1 = (s'.request c route now).1 ∧
      AlikeFrom c start (s.request c route now).2 (s'.request c route now).2 := by
  unfold Limiter.request
  dsimp only
  rw [h.overall.consult late, (h.routes route).consult late]
  split
  · exact ⟨rfl, h.insert _ _ route⟩
  · exact ⟨rfl, h.insert _ _ route⟩

/-- One more call leaves both alike. -/
theorem call (h : AlikeFrom c start s s') (call : Call) (late : call.NotBefore start) :
    AlikeFrom c start (call.run c s).2 (call.run c s').2 := by
  cases call with
  | request route now => exact (h.request late route).2
  | refund route taken => exact h.refund route taken
  | usage now =>
    have same := congrArg Prod.snd (h.usage late)
    simp only [Call.run, same]
    exact .refl _ _ _

theorem after (h : AlikeFrom c start s s') (calls : List Call)
    (late : ∀ call ∈ calls, call.NotBefore start) :
    AlikeFrom c start (s.after c calls) (s'.after c calls) := by
  induction calls generalizing s s' with
  | nil => exact h
  | cons call calls ih =>
    rw [List.forall_mem_cons] at late
    exact ih (h.call call late.1) late.2

end AlikeFrom

/-- From `start` on no one can tell the two apart: after any further calls they decide alike and
report the same use. -/
def SameFrom (c : RateLimitConfig) (start : Timestamp) (s s' : Limiter) : Prop :=
  ∀ calls : List Call, (∀ call ∈ calls, call.NotBefore start) → ∀ now, start ≤ now →
    (∀ route, ((s.after c calls).request c route now).1 =
      ((s'.after c calls).request c route now).1) ∧
    ((s.after c calls).usage c now).1 = ((s'.after c calls).usage c now).1

theorem AlikeFrom.same (h : AlikeFrom c start s s') : SameFrom c start s s' := by
  intro calls from_start now late
  have alike := h.after calls from_start
  exact ⟨fun route => (alike.request late route).1, congrArg Prod.fst (alike.usage late)⟩

end Limiter

end Courier
