import Courier.Proofs.Limiter.Log
import Courier.Proofs.Solo.Gates
import Courier.Proofs.Solo.Process

/-! Room under the rate limit while nobody else asks for any. A worker adds one call to the windows
of its route for each time that it turns to the adapter, which is once at most, and none otherwise.
It turns to the adapter before it knows whether there is one, so that the call is counted all the
same when the platform has none. -/

namespace Courier

open Plan

namespace Window

theorem remove_append_singleton (w : Window) (t : Timestamp) : Window.remove t (w ++ [t]) = w := by
  simp [remove]

end Window

namespace Limiter

variable {c : RateLimitConfig} {route : String} {t : Timestamp} {new : List Timestamp}
  {s s' s'' : Limiter}

/-- The windows that a call on the route has to fit in have taken in `new`. -/
structure Gains (c : RateLimitConfig) (route : String) (new : List Timestamp) (s s' : Limiter) :
    Prop where
  overall : ∀ l, c.overall = some l → s'.overall = s.overall ++ new
  own : ∀ l, c.forRoute route = some l → s'.routeWindow route = s.routeWindow route ++ new

/-- They have taken in so many calls. -/
def Adds (c : RateLimitConfig) (route : String) (n : Nat) (s s' : Limiter) : Prop :=
  ∃ new : List Timestamp, new.length = n ∧ Gains c route new s s'

theorem Gains.none (c : RateLimitConfig) (route : String) (s : Limiter) : Gains c route [] s s :=
  ⟨fun _ _ => (List.append_nil _).symm, fun _ _ => (List.append_nil _).symm⟩

/-- A request trims the windows, and takes room if it is let through. -/
theorem gains_request (c : RateLimitConfig) (route : String) (t : Timestamp) (s : Limiter) :
    Gains c route (if (s.request c route t).1.allowed then [t] else []) (s.settle c t)
      (s.request c route t).2 := by
  rcases request_cases c route t s with ⟨-, allowed, after⟩ | ⟨-, denied, after⟩
  · rw [allowed, after, if_pos rfl]
    refine ⟨fun l hl => ?_, fun l hl => ?_⟩
    · simp [settle, note, hl]
    · rw [routeWindow_insert, if_pos rfl, routeWindow_settle]
      simp [note, hl]
  · rw [denied, after, if_neg Bool.false_ne_true]
    refine ⟨fun l hl => ?_, fun l hl => ?_⟩
    · simp [settle]
    · rw [routeWindow_insert, if_pos rfl, routeWindow_settle, List.append_nil]

/-- A refund gives back the room that was taken last. -/
theorem Gains.refund (h : Gains c route [t] s s') : Gains c route [] s (s'.refund c route t) := by
  refine ⟨fun l hl => ?_, fun l hl => ?_⟩
  · rw [Limiter.refund, if_pos (by rw [hl]; rfl), h.overall l hl, Window.remove_append_singleton,
      List.append_nil]
  · rw [routeWindow_refund, if_pos rfl, h.own l hl, Window.remove_append_singleton,
      List.append_nil]

/-- Where a limit applies, the windows tell how many calls they have taken in. -/
theorem Adds.unique {n m : Nat} (limited : c.overall.isSome ∨ (c.forRoute route).isSome)
    (h : Adds c route n s s') (h' : Adds c route m s s') : n = m := by
  obtain ⟨new, rfl, gains⟩ := h
  obtain ⟨new', rfl, gains'⟩ := h'
  rcases limited with limited | limited
  · obtain ⟨l, hl⟩ := Option.isSome_iff_exists.1 limited
    rw [List.append_cancel_left ((gains.overall l hl).symm.trans (gains'.overall l hl))]
  · obtain ⟨l, hl⟩ := Option.isSome_iff_exists.1 limited
    rw [List.append_cancel_left ((gains.own l hl).symm.trans (gains'.own l hl))]

/-- Where none applies, there is nothing to tell. -/
theorem adds_of_unlimited (overall : c.overall = none) (own : c.forRoute route = none) (n : Nat)
    (s s' : Limiter) : Adds c route n s s' := by
  refine ⟨List.replicate n .epoch, List.length_replicate, fun l hl => ?_, fun l hl => ?_⟩
  · rw [overall] at hl
    cases hl
  · rw [own] at hl
    cases hl

end Limiter

namespace Deed

/-- The time with which a deed asks for room. -/
def roomAsked? : Deed → Option Timestamp
  | ⟨.requestRoom _ t, _⟩ => some t
  | _ => none

/-- Whether a deed turns to the adapter. -/
def turnsOut : Deed → Bool
  | ⟨.callAdapter _, _⟩ => true
  | _ => false

/-- Whether it does so in vain, because the platform has none. -/
def missesAdapter : Deed → Bool
  | ⟨.callAdapter _, .noAdapter⟩ => true
  | _ => false

/-- Whether it has an adapter carry the intent out. -/
def isExecution (d : Deed) : Bool := d.turnsOut && !d.missesAdapter

theorem countP_turnsOut (past : List Deed) :
    past.countP turnsOut = past.countP isExecution + past.countP missesAdapter := by
  have misses : ∀ d : Deed, d.missesAdapter = true → d.turnsOut = true := by
    rintro ⟨a, r⟩ h
    cases a <;> first | rfl | cases h
  induction past with
  | nil => rfl
  | cons d past ih =>
    simp only [List.countP_cons, ih, isExecution]
    by_cases hd : d.missesAdapter = true
    · simp [hd, misses d hd, Nat.add_assoc]
    · simp [hd, Nat.add_right_comm]

end Deed

namespace RoomHold

/-- What the windows have taken in on its account. -/
def entries : RoomHold → List Timestamp
  | held t | spent t => [t]
  | unasked | settled _ => []

/-- The time of its request, if it has made one. -/
def asked? : RoomHold → Option Timestamp
  | unasked => none
  | held t | spent t | settled t => some t

/-- How often it has turned to the adapter. -/
def calls : RoomHold → Nat
  | spent _ => 1
  | _ => 0

end RoomHold

namespace Engine

/-- Nobody has used or changed the rate limit. -/
structure SameLimiter (e e' : Engine) : Prop where
  config : e'.config.rateLimit = e.config.rateLimit
  limiter : e'.limiter = e.limiter

theorem SameLimiter.refl (e : Engine) : SameLimiter e e := ⟨rfl, rfl⟩

end Engine

/-- The limiter that a plan found, trimmed as its request for room has trimmed it. -/
def Limiter.found (c : RateLimitConfig) (past : List Deed) (s : Limiter) : Limiter :=
  (past.findSome? Deed.roomAsked?).elim s fun t => s.settle c t

theorem Deed.findSome?_snoc {past : List Deed} {d : Deed} (unasked : d.roomAsked? = none) :
    (past ++ [d]).findSome? roomAsked? = past.findSome? roomAsked? := by
  simp [List.findSome?_append, unasked]

theorem Limiter.found_snoc {past : List Deed} {d : Deed} (unasked : d.roomAsked? = none)
    (c : RateLimitConfig) (s : Limiter) : s.found c (past ++ [d]) = s.found c past := by
  rw [found, found, Deed.findSome?_snoc unasked]

/-- What the windows look like, from `e₀` on, to a worker with such a hold on them. -/
structure RoomHold.Fits (route : String) (e₀ : Engine) (h : RoomHold) (past : List Deed)
    (e : Engine) : Prop where
  config : e.config.rateLimit = e₀.config.rateLimit
  asked : past.findSome? Deed.roomAsked? = h.asked?
  calls : past.countP Deed.turnsOut = h.calls
  gains : Limiter.Gains e₀.config.rateLimit route h.entries
    (e₀.limiter.found e₀.config.rateLimit past) e.limiter
  untouched : h.asked? = none → e.limiter = e₀.limiter

namespace RoomHold.Fits

variable {route : String} {past : List Deed} {e₀ e e' : Engine} {h : RoomHold} {d : Deed}

theorem others (fits : h.Fits route e₀ past e) (same : e.SameLimiter e') :
    h.Fits route e₀ past e' where
  config := same.config.trans fits.config
  asked := fits.asked
  calls := fits.calls
  gains := same.limiter ▸ fits.gains
  untouched unasked := same.limiter.trans (fits.untouched unasked)

/-- A deed that neither asks for room nor turns to the adapter is no matter. -/
theorem elsewhere (fits : h.Fits route e₀ past e) (unasked : d.roomAsked? = none)
    (inside : d.turnsOut = false) (same : e.SameLimiter e') :
    h.Fits route e₀ (past ++ [d]) e' := by
  have fits := fits.others same
  refine ⟨fits.config, (Deed.findSome?_snoc unasked).trans fits.asked, ?_, ?_, fits.untouched⟩
  · simp [inside, fits.calls]
  · exact (Limiter.found_snoc unasked _ _).symm ▸ fits.gains

theorem request {t : Timestamp} {d : RateDecision} (fits : unasked.Fits route e₀ past e)
    (answers : e.Answers (.requestRoom route t) d e') :
    (of t d).Fits route e₀ (past ++ [⟨.requestRoom route t, d⟩]) e' := by
  have gains := Limiter.gains_request e.config.rateLimit route t e.limiter
  obtain ⟨decided, left, config⟩ : (e.limiter.request e.config.rateLimit route t).1 = d ∧
      (e.limiter.request e.config.rateLimit route t).2 = e'.limiter ∧ e'.config = e.config := by
    cases answers.performed rfl
    exact ⟨rfl, rfl, rfl⟩
  rw [decided, left, fits.config, fits.untouched rfl] at gains
  have asked : (past ++ [Deed.mk (.requestRoom route t) d]).findSome? Deed.roomAsked? = some t := by
    simp [List.findSome?_append, fits.asked, asked?, Deed.roomAsked?]
  have calls : (past ++ [Deed.mk (.requestRoom route t) d]).countP Deed.turnsOut = 0 := by
    simp [fits.calls, RoomHold.calls, Deed.turnsOut]
  have config := (congrArg Config.rateLimit config).trans fits.config
  have found : e₀.limiter.found e₀.config.rateLimit (past ++ [Deed.mk (.requestRoom route t) d]) =
      e₀.limiter.settle e₀.config.rateLimit t := by rw [Limiter.found, asked]; rfl
  rw [← found] at gains
  unfold of
  cases allowed : d.allowed with
  | true =>
    rw [allowed] at gains
    exact ⟨config, asked, calls, gains, nofun⟩
  | false =>
    rw [allowed] at gains
    exact ⟨config, asked, calls, gains, nofun⟩

theorem refund {t : Timestamp} {u : Unit} (fits : (held t).Fits route e₀ past e)
    (answers : e.Answers (.refundRoom route t) u e') :
    (settled t).Fits route e₀ (past ++ [⟨.refundRoom route t, u⟩]) e' := by
  obtain ⟨left, config⟩ : e'.limiter = e.limiter.refund e.config.rateLimit route t ∧
      e'.config = e.config := by
    cases answers.performed rfl
    exact ⟨rfl, rfl⟩
  have gains := fits.gains.refund
  rw [← fits.config, ← left, fits.config] at gains
  have unasked : Deed.roomAsked? ⟨.refundRoom route t, u⟩ = none := rfl
  refine ⟨(congrArg Config.rateLimit config).trans fits.config,
    (Deed.findSome?_snoc unasked).trans fits.asked, ?_, ?_, nofun⟩
  · simp [fits.calls, RoomHold.calls, Deed.turnsOut]
  · rw [Limiter.found_snoc unasked]
    exact gains

theorem call {t : Timestamp} {i : Intent} {r : AdapterReply} (fits : (held t).Fits route e₀ past e)
    (answers : e.Answers (.callAdapter i) r e') :
    (spent t).Fits route e₀ (past ++ [⟨.callAdapter i, r⟩]) e' := by
  obtain ⟨-, rfl⟩ | ⟨own, -⟩ := answers
  · have unasked : Deed.roomAsked? ⟨.callAdapter i, r⟩ = none := rfl
    refine ⟨fits.config, (Deed.findSome?_snoc unasked).trans fits.asked, ?_, ?_, nofun⟩
    · simp [fits.calls, RoomHold.calls, Deed.turnsOut]
    · rw [Limiter.found_snoc unasked]
      exact fits.gains
  · cases own

end RoomHold.Fits

/-- The hold of a worker tells of the windows as long as nobody else uses them. -/
theorem accounted_room (route : String) (e₀ : Engine) : Accounted Engine.SameLimiter (gates route)
    fun s past e => s.room.Fits route e₀ past e where
  still fits same := fits.others same
  act {s past e e' a r} fits allowed answers := by
    cases a with
    | requestRoom =>
      obtain ⟨rfl, unasked⟩ := allowed
      rw [unasked] at fits
      exact fits.request answers
    | refundRoom =>
      obtain ⟨rfl, held⟩ := allowed
      rw [held] at fits
      exact fits.refund answers
    | callAdapter =>
      obtain ⟨t, held⟩ := allowed
      rw [held] at fits
      have called : s.room.called.Fits route e₀ (past ++ [⟨_, r⟩]) e' := held ▸ fits.call answers
      exact called
    | requestPassage | cancelTrial | circuitSuccess | circuitFailure =>
      cases answers.performed rfl
      exact fits.elsewhere rfl rfl ⟨rfl, rfl⟩
    | _ =>
      have same := answers.sameGates allowed
      have same : e.SameLimiter e' := ⟨congrArg Config.rateLimit same.config, same.limiter⟩
      exact fits.elsewhere rfl rfl same

namespace Worker

variable {cfg : Config} {worker : String} {j : Job} {e e' : Engine} {past : List Deed}
  {q : Attempt Disposition}

/-- What the windows of a route have taken in when a worker has done with its job, whatever its
calls are answered and whatever else goes on, as long as nobody else uses the limiter: one call if
the worker turned to the adapter, which it does once at most, and none otherwise. So they have taken
in as many calls as an adapter carried out exactly if no limit applies or if there was an adapter to
turn to. The worker comes to an end with its job from wherever it has got to. -/
theorem process_room (apart : Apart Engine.SameLimiter (process cfg worker j) e past e' q) :
    (∃ more e'' r, Apart Engine.SameLimiter (process cfg worker j) e (past ++ more) e'' (.done r)) ∧
      ∀ r, q = .done r →
        past.countP Deed.turnsOut ≤ 1 ∧
        (e.limiter.found e.config.rateLimit past).Adds e.config.rateLimit j.routeKey
          (past.countP Deed.turnsOut) e'.limiter ∧
        ((e.limiter.found e.config.rateLimit past).Adds e.config.rateLimit j.routeKey
            (past.countP Deed.isExecution) e'.limiter ↔
          (e.config.rateLimit.overall = none ∧ e.config.rateLimit.forRoute j.routeKey = none) ∨
            ∀ d ∈ past, d.missesAdapter = false) := by
  refine ⟨apart.completes .refl (apart.uses (serves_process cfg worker j)), ?_⟩
  rintro r rfl
  have start : (Hold.mk .unasked .unasked).room.Fits j.routeKey e [] e :=
    ⟨rfl, rfl, rfl, .none _ _ _, fun _ => rfl⟩
  obtain ⟨⟨trial, room⟩, fits, -, free⟩ :=
    (accounted_room j.routeKey e).apart start (gates_process cfg worker j) apart
  have spent : room.entries.length = past.countP Deed.turnsOut := by
    rw [fits.calls]
    cases room with
    | held t => cases free
    | unasked | spent | settled => rfl
  have adds : (e.limiter.found e.config.rateLimit past).Adds e.config.rateLimit j.routeKey
      (past.countP Deed.turnsOut) e'.limiter := ⟨_, spent, fits.gains⟩
  refine ⟨?_, adds, fun counted => ?_, ?_⟩
  · rw [← spent]
    cases room <;> simp [RoomHold.entries]
  · by_cases limited : e.config.rateLimit.overall.isSome ∨
      (e.config.rateLimit.forRoute j.routeKey).isSome
    · have same := adds.unique limited counted
      rw [Deed.countP_turnsOut, Nat.add_eq_left, List.countP_eq_zero] at same
      exact Or.inr fun d hd => by simpa using same d hd
    · simpa using Or.inl limited
  · rintro (⟨overall, own⟩ | met)
    · exact Limiter.adds_of_unlimited overall own _ _ _
    · have noneMissed : past.countP Deed.missesAdapter = 0 :=
        List.countP_eq_zero.2 fun d hd => by simp [met d hd]
      rwa [Deed.countP_turnsOut, noneMissed] at adds

/-- The adapter carries the intent out, and the windows have taken in that call. -/
theorem process_room_carriedOut : ∃ past e' r,
    carry? (outside (.outcome .success)) 20 lentEngine (process Config.usual "w-1" lentJob) =
        some (past, e', r) ∧
      past.countP Deed.isExecution = 1 ∧
      (lentEngine.limiter.found lentEngine.config.rateLimit past).Adds lentEngine.config.rateLimit
        lentJob.routeKey 1 e'.limiter := by
  have carriedOut : ((carry? (outside (.outcome .success)) 20 lentEngine
      (process Config.usual "w-1" lentJob)).any fun c =>
        c.1.countP Deed.isExecution = 1 && c.1.countP Deed.missesAdapter = 0) = true := by
    decide +kernel
  obtain ⟨⟨past, e', r⟩, carried, carriedOut⟩ := (Option.any_eq_true _ _).1 carriedOut
  simp only [Bool.and_eq_true, decide_eq_true_eq] at carriedOut
  obtain ⟨executed, met⟩ := carriedOut
  have start : Apart Engine.SameLimiter (process Config.usual "w-1" lentJob) lentEngine []
      lentEngine (process Config.usual "w-1" lentJob) := .start (.refl _)
  obtain ⟨-, -, counted⟩ := (process_room (start.of_carry? .refl carried)).2 _ rfl
  have met : ∀ d ∈ past, d.missesAdapter = false := fun d hd => by
    simpa using List.countP_eq_zero.1 met d hd
  exact ⟨past, e', r, carried, executed, executed ▸ counted.2 (Or.inr met)⟩

/-- The platform has no adapter, and yet the windows have taken in a call. -/
theorem exists_room_kept_without_adapter : ∃ past e' r,
    Apart Engine.SameLimiter (process Config.usual "w-1" lentJob) lentEngine past e' (.done r) ∧
      past.countP Deed.isExecution = 0 ∧
      ¬ (lentEngine.limiter.found lentEngine.config.rateLimit past).Adds lentEngine.config.rateLimit
        lentJob.routeKey 0 e'.limiter := by
  have missed : ((carry? (outside .noAdapter) 20 lentEngine
      (process Config.usual "w-1" lentJob)).any fun c =>
        c.1.countP Deed.isExecution = 0 &&
          (lentEngine.limiter.found lentEngine.config.rateLimit c.1).overall.length <
            c.2.1.limiter.overall.length) = true := by decide +kernel
  obtain ⟨⟨past, e', r⟩, carried, missed⟩ := (Option.any_eq_true _ _).1 missed
  simp only [Bool.and_eq_true, decide_eq_true_eq] at missed
  obtain ⟨uncalled, longer⟩ := missed
  have start : Apart Engine.SameLimiter (process Config.usual "w-1" lentJob) lentEngine []
      lentEngine (process Config.usual "w-1" lentJob) := .start (.refl _)
  refine ⟨past, e', r, start.of_carry? .refl carried, uncalled, ?_⟩
  rintro ⟨new, none, gains⟩
  rw [gains.overall _ rfl, List.length_append, none] at longer
  exact Nat.lt_irrefl _ longer

end Worker

end Courier
