import Mathlib.Data.List.DropRight
import Courier.Proofs.Breaker.Trial
import Courier.Proofs.Limiter.Window

/-! What a circuit has to do, told by the calls alone. Callers need keep to no protocol here: any
calls come in, in any order, as long as the clock does not go back. A shut circuit opens on the
failures since it last heard good news, and an open one is deaf until it has cooled down. -/

namespace Courier

/-- Where the sum of an instant and a whole number of seconds lies, no clamping interferes. -/
theorem Timestamp.since_lt_ofSeconds (now t : Timestamp) (n : Int) :
    now.since t < Span.ofSeconds n ↔ now.nanos < t.nanos + n * 1000000000 := by
  have := now.lower
  have := now.upper
  have := t.lower
  have := t.upper
  show now.nanos - t.nanos < (Span.ofSeconds n).nanos ↔ _
  simp only [Span.ofSeconds, Span.clamp, firstNanos, lastNanos, longestNanos] at *
  omega

namespace Circuit

variable {cfg : CircuitConfig} {c : Circuit} {now : Timestamp}

/-- The failures that a shut circuit keeps when one more comes in. -/
def kept (cfg : CircuitConfig) (now : Timestamp) (c : Circuit) : List Timestamp :=
  (c.failures ++ [now]).dropWhile fun t => t ≤ now.sub (.ofSeconds cfg.windowSecs)

theorem failure_of_shut (hs : c.state = .shut) : (c.failure cfg now).circuit =
    if cfg.failureThreshold ≤ (c.kept cfg now).length then
      ⟨.tripped, c.kept cfg now, some now, none, 0⟩
    else { c with failures := c.kept cfg now } := by
  simp only [failure, hs]
  split_ifs with full full' full'
  · rfl
  · exact absurd full full'
  · exact absurd full' full
  · rfl

theorem request_of_shut (hs : c.state = .shut) : c.request cfg now = (.granted, .stay c) := by
  simp only [request, hs]

theorem success_of_shut (hs : c.state = .shut) :
    c.success cfg now = .stay { c with failures := [] } := by
  simp only [success, hs]

theorem cancelTrial_of_shut (hs : c.state = .shut) : c.cancelTrial = c := by
  simp only [cancelTrial, hs]

theorem shut_of_granted (h : (c.request cfg now).1 = .granted) : c.state = .shut := by
  cases hc : c.state with
  | shut => rfl
  | tripped | halfOpen =>
    simp only [request, hc] at h
    split_ifs at h

/-- A request does not shut a circuit. -/
theorem request_not_shut (hs : c.state ≠ .shut) : (c.request cfg now).2.circuit.state ≠ .shut := by
  cases hp : (c.request cfg now).1 with
  | denied => rwa [request_denied hp]
  | onTrial =>
    rw [(request_onTrial hp).1]
    nofun
  | granted => exact absurd (shut_of_granted hp) hs

/-- The cooldown of a circuit runs from the call that tripped it. -/
theorem openedAt_of_tripped {call : Call} (hs : c.state ≠ .tripped)
    (hs' : (call.run cfg now c).2.state = .tripped) :
    (call.run cfg now c).2.openedAt = some now := by
  by_cases hc : call = .request
  · subst hc
    exfalso
    rw [Call.run] at hs'
    cases hp : (c.request cfg now).1 with
    | denied =>
      rw [request_denied hp] at hs'
      exact hs hs'
    | onTrial =>
      rw [(request_onTrial hp).1] at hs'
      cases hs'
    | granted =>
      rw [request_of_shut (shut_of_granted hp)] at hs'
      exact hs hs'
  · rcases report_cases cfg now hs hc with ajar | ⟨-, -, opened⟩
    · exact absurd hs' ajar.not_tripped
    · exact opened

theorem onTrial_of_cooled {t : Timestamp} (hs : c.state = .tripped) (ht : c.openedAt = some t)
    (cooled : Span.ofSeconds cfg.cooldownSecs ≤ now.since t) :
    (c.request cfg now).1 = .onTrial := by
  simp [request, hs, ht, cooled]

/-- A circuit that comes to be shut has no failures on record. -/
theorem failures_of_shut {call : Call} (hs : c.state ≠ .shut)
    (hs' : (call.run cfg now c).2.state = .shut) : (call.run cfg now c).2.failures = [] := by
  cases call with
  | request => exact absurd hs' (request_not_shut hs)
  | success =>
    cases hc : c.state with
    | shut => exact absurd hc hs
    | tripped =>
      rw [report_of_tripped hc (by nofun)] at hs'
      exact absurd hs' hs
    | halfOpen =>
      simp only [Call.run, success, hc] at hs' ⊢
      split_ifs at hs' ⊢ with closes
      · rfl
      · cases hs'
  | failure =>
    cases hc : c.state with
    | shut => exact absurd hc hs
    | tripped | halfOpen => simp [Call.run, failure, hc, Move.stay, enter] at hs'
  | cancelTrial =>
    cases hc : c.state with
    | shut => exact absurd hc hs
    | tripped | halfOpen => simp [Call.run, cancelTrial, hc] at hs'

end Circuit

namespace Breaker

variable {cfg : CircuitConfig} {route : String}

/-- Calls from anybody, on any routes, at times that do not go back. -/
inductive Traffic (cfg : CircuitConfig) : List Entry → Breaker → Prop where
  | nil : Traffic cfg [] empty
  | snoc {h : List Entry} {b : Breaker} (traffic : Traffic cfg h b) (a : Act)
      (later : ∀ e ∈ h, e.now ≤ a.now) : Traffic cfg (h ++ [⟨a, b⟩]) (a.run cfg b).2

theorem Traffic.of_snoc {h : List Entry} {e : Entry} {b : Breaker}
    (traffic : Traffic cfg (h ++ [e]) b) :
    Traffic cfg h e.before ∧ (∀ d ∈ h, d.now ≤ e.now) ∧ b = e.after cfg := by
  generalize hh : h ++ [e] = h' at traffic
  cases traffic with
  | nil => simp at hh
  | snoc traffic a later =>
    obtain ⟨rfl, he⟩ := List.append_inj' hh rfl
    cases he
    exact ⟨traffic, later, rfl⟩

/-- What came in up to any point is traffic. -/
theorem Traffic.upTo {pre post : List Entry} {e : Entry} {b : Breaker}
    (traffic : Traffic cfg (pre ++ e :: post) b) : Traffic cfg (pre ++ [e]) (e.after cfg) := by
  induction post using List.reverseRecOn generalizing b with
  | nil => rwa [← traffic.of_snoc.2.2]
  | append_singleton post d ih =>
    rw [← List.cons_append, ← List.append_assoc] at traffic
    exact ih traffic.of_snoc.1

/-- The circuit of `route` is shut anew, or is told of a success while shut. -/
def Entry.Clears (cfg : CircuitConfig) (route : String) (e : Entry) : Prop :=
  e.route = route ∧ (e.after cfg).state route = .shut ∧
    (e.before.state route ≠ .shut ∨ e.call = .success)

instance (e : Entry) : Decidable (e.Clears cfg route) :=
  inferInstanceAs (Decidable (_ ∧ _ ∧ (_ ∨ _)))

/-- The entries since the last that clears the circuit of `route`, or since the start. -/
def sinceCleared (cfg : CircuitConfig) (route : String) (h : List Entry) : List Entry :=
  h.rtakeWhile fun e => !decide (e.Clears cfg route)

/-- The times of the failures on `route` among them. -/
def failureTimes (cfg : CircuitConfig) (route : String) (h : List Entry) : List Timestamp :=
  ((sinceCleared cfg route h).filter fun e => e.route = route ∧ e.call = .failure).map (·.now)

/-- How many of them are later than `horizon`, up to `now`. -/
def failuresIn (cfg : CircuitConfig) (route : String) (horizon now : Timestamp) (h : List Entry) :
    Nat := (failureTimes cfg route h).countP fun t => horizon < t ∧ t ≤ now

theorem failureTimes_clears {h : List Entry} {e : Entry} (clears : e.Clears cfg route) :
    failureTimes cfg route (h ++ [e]) = [] := by
  rw [failureTimes, sinceCleared, List.rtakeWhile_concat_neg _ _ _ (by simpa using clears)]
  rfl

theorem failureTimes_snoc {h : List Entry} {e : Entry} (quiet : ¬ e.Clears cfg route) :
    failureTimes cfg route (h ++ [e]) = failureTimes cfg route h ++
      if e.route = route ∧ e.call = .failure then [e.now] else [] := by
  rw [failureTimes, sinceCleared, List.rtakeWhile_concat_pos _ _ _ (by simpa using quiet),
    List.filter_append, List.map_append, failureTimes, sinceCleared]
  split_ifs with failed
  · rw [List.filter_cons_of_pos (by simpa using failed)]
    rfl
  · rw [List.filter_cons_of_neg (by simpa using failed)]
    rfl

theorem mem_of_failureTimes {h : List Entry} {t : Timestamp}
    (ht : t ∈ failureTimes cfg route h) : ∃ e ∈ h, e.now = t := by
  obtain ⟨e, he, rfl⟩ := List.mem_map.1 ht
  exact ⟨e, (List.rtakeWhile_suffix _ h).subset (List.mem_filter.1 he).1, rfl⟩

/-- The times of failures come in their order. -/
theorem Traffic.failureTimes_sorted {h : List Entry} {b : Breaker} (traffic : Traffic cfg h b) :
    (failureTimes cfg route h).Pairwise (· ≤ ·) := by
  have sorted : h.Pairwise fun d e => d.now ≤ e.now := by
    induction traffic with
    | nil => exact List.Pairwise.nil
    | snoc traffic a later ih =>
      rw [List.pairwise_append]
      refine ⟨ih, List.pairwise_singleton _ _, fun d hd e he => ?_⟩
      rw [List.mem_singleton.1 he]
      exact later d hd
  exact List.pairwise_map.2 ((sorted.sublist (List.rtakeWhile_suffix _ h).sublist).filter _)

/-- While a circuit is shut it has on record the failures since it was cleared, but for some that
have left the window for good. -/
def Remembers (cfg : CircuitConfig) (route : String) (h : List Entry) (c : Circuit) : Prop :=
  c.state = .shut → ∃ gone, failureTimes cfg route h = gone ++ c.failures ∧
    ∀ t ∈ gone, ∀ now, (∀ e ∈ h, e.now ≤ now) → t ≤ now.sub (.ofSeconds cfg.windowSecs)

theorem Remembers.kept_eq {h : List Entry} {e : Entry}
    (remembers : Remembers cfg route h (e.before.circuit route))
    (traffic : Traffic cfg (h ++ [e]) (e.after cfg)) (hs : e.before.state route = .shut)
    (failed : e.route = route ∧ e.call = .failure) :
    (e.before.circuit route).kept cfg e.now =
      (failureTimes cfg route (h ++ [e])).dropWhile fun t =>
        t ≤ e.now.sub (.ofSeconds cfg.windowSecs) := by
  obtain ⟨gone, split, past⟩ := remembers hs
  have quiet : ¬ e.Clears cfg route := by
    rintro ⟨-, -, anew | success⟩
    · exact anew hs
    · rw [failed.2] at success
      cases success
  have old : ∀ t ∈ gone, t ≤ e.now.sub (.ofSeconds cfg.windowSecs) := fun t ht =>
    past t ht e.now traffic.of_snoc.2.1
  rw [failureTimes_snoc quiet, if_pos failed, split, List.append_assoc,
    List.dropWhile_append_of_pos (by simpa using old)]
  rfl

/-- A call that neither clears the circuit nor fails leaves its record as good as it was. -/
theorem Remembers.same {h : List Entry} {e : Entry} {c : Circuit}
    (remembers : Remembers cfg route h c) (quiet : ¬ e.Clears cfg route)
    (unfailed : ¬ (e.route = route ∧ e.call = .failure)) :
    Remembers cfg route (h ++ [e]) c := by
  intro hs
  obtain ⟨gone, split, past⟩ := remembers hs
  refine ⟨gone, ?_, fun t ht now later => past t ht now fun d hd => later d (by simp [hd])⟩
  rw [failureTimes_snoc quiet, if_neg unfailed, List.append_nil, split]

theorem Remembers.snoc {h : List Entry} {e : Entry}
    (remembers : Remembers cfg route h (e.before.circuit route))
    (traffic : Traffic cfg (h ++ [e]) (e.after cfg)) :
    Remembers cfg route (h ++ [e]) ((e.after cfg).circuit route) := by
  by_cases hr : e.route = route
  case neg =>
    rw [Entry.circuit_after, if_neg (Ne.symm hr)]
    exact remembers.same (fun clears => hr clears.1) fun failed => hr failed.1
  have after : (e.after cfg).circuit route =
      (e.call.run cfg e.now (e.before.circuit route)).2 := by
    rw [Entry.circuit_after, if_pos hr.symm]
  -- a circuit that is cleared starts a record of its own
  have cleared : e.Clears cfg route → ((e.after cfg).circuit route).failures = [] →
      Remembers cfg route (h ++ [e]) ((e.after cfg).circuit route) := by
    intro clears none_ _
    exact ⟨[], by rw [failureTimes_clears clears, none_]; rfl, by simp⟩
  by_cases hs : e.before.state route = .shut
  case neg =>
    intro hs'
    rw [after] at hs'
    refine cleared ⟨hr, ?_, Or.inl hs⟩ ?_ (after ▸ hs')
    · rwa [Breaker.state, after]
    · rw [after]
      exact Circuit.failures_of_shut hs hs'
  have quiet : e.call ≠ .success → ¬ e.Clears cfg route := by
    rintro hc ⟨-, -, anew | success⟩
    · exact anew hs
    · exact hc success
  cases hc : e.call with
  | request =>
    rw [after, hc, Circuit.Call.run, Circuit.request_of_shut hs]
    exact remembers.same (quiet (by rw [hc]; rintro ⟨⟩)) (by rw [hc]; rintro ⟨-, ⟨⟩⟩)
  | cancelTrial =>
    rw [after, hc, Circuit.Call.run, Circuit.cancelTrial_of_shut hs]
    exact remembers.same (quiet (by rw [hc]; rintro ⟨⟩)) (by rw [hc]; rintro ⟨-, ⟨⟩⟩)
  | success =>
    rw [hc, Circuit.Call.run, Circuit.success_of_shut hs] at after
    refine cleared ⟨hr, ?_, Or.inr hc⟩ ?_
    · rw [Breaker.state, after]
      exact hs
    · rw [after]
      rfl
  | failure =>
    rw [after, hc, Circuit.Call.run, Circuit.failure_of_shut hs]
    split_ifs with full
    · rintro ⟨⟩
    · intro _
      refine ⟨(failureTimes cfg route (h ++ [e])).takeWhile fun t =>
        t ≤ e.now.sub (.ofSeconds cfg.windowSecs), ?_, ?_⟩
      · rw [remembers.kept_eq traffic hs ⟨hr, hc⟩]
        exact List.takeWhile_append_dropWhile.symm
      · intro t ht now later
        have past : t ≤ e.now.sub (.ofSeconds cfg.windowSecs) := by
          simpa using List.mem_takeWhile_imp ht
        exact Int.le_trans past (Timestamp.sub_le_sub (later e (by simp)) _)

theorem Traffic.remembers {h : List Entry} {b : Breaker} (traffic : Traffic cfg h b) :
    Remembers cfg route h (b.circuit route) := by
  induction traffic with
  | nil => exact fun _ => ⟨[], rfl, by simp⟩
  | snoc traffic a later ih => exact ih.snoc (traffic.snoc a later)

/-- A failure opens a shut circuit if enough of them are left in the window, and only then. -/
theorem Traffic.opens_iff {h : List Entry} {e : Entry}
    (traffic : Traffic cfg (h ++ [e]) (e.after cfg)) (hs : e.before.state route = .shut)
    (failed : e.route = route ∧ e.call = .failure) :
    (e.after cfg).state route = .tripped ↔ cfg.failureThreshold ≤
      failuresIn cfg route (e.now.sub (.ofSeconds cfg.windowSecs)) e.now (h ++ [e]) := by
  have counted : ((e.before.circuit route).kept cfg e.now).length =
      failuresIn cfg route (e.now.sub (.ofSeconds cfg.windowSecs)) e.now (h ++ [e]) := by
    have past : ∀ t ∈ failureTimes cfg route (h ++ [e]), t ≤ e.now := by
      intro t ht
      obtain ⟨d, hd, rfl⟩ := mem_of_failureTimes ht
      rcases List.mem_append.1 hd with hd | hd
      · exact traffic.of_snoc.2.1 d hd
      · rw [List.mem_singleton.1 hd]
        exact Timestamp.le_refl _
    calc ((e.before.circuit route).kept cfg e.now).length
      _ = (Window.trim ⟨cfg.failureThreshold, cfg.windowSecs⟩ e.now
            (failureTimes cfg route (h ++ [e]))).length := by
          rw [traffic.of_snoc.1.remembers.kept_eq traffic hs failed]
          rfl
      _ = (failureTimes cfg route (h ++ [e])).countP fun t =>
            e.now.sub (.ofSeconds cfg.windowSecs) < t := by
          rw [Window.trim_eq_filter traffic.failureTimes_sorted, ← List.countP_eq_length_filter]
          rfl
      _ = failuresIn cfg route (e.now.sub (.ofSeconds cfg.windowSecs)) e.now (h ++ [e]) :=
          List.countP_congr fun t ht => by simp [past t ht]
  have after : (e.after cfg).circuit route =
      ((e.before.circuit route).failure cfg e.now).circuit := by
    rw [Entry.circuit_after, if_pos failed.1.symm, failed.2]
    rfl
  rw [← counted, Breaker.state, after, Circuit.failure_of_shut hs]
  split_ifs with full
  · exact iff_of_true rfl full
  · refine iff_of_false ?_ full
    rw [show (e.before.circuit route).state = .shut from hs]
    nofun

/-- Whether a call on a circuit that was opened by `e₀` comes before it has cooled down. -/
def Entry.Early (cfg : CircuitConfig) (e₀ e : Entry) : Prop :=
  e.now.nanos < e₀.now.nanos + cfg.cooldownSecs * 1000000000

instance (e₀ e : Entry) : Decidable (e₀.Early cfg e) := inferInstanceAs (Decidable (_ < _))

/-- The entry opens the circuit of `route`. -/
def Entry.Opens (cfg : CircuitConfig) (route : String) (e : Entry) : Prop :=
  e.before.state route ≠ .tripped ∧ (e.after cfg).state route = .tripped

theorem Entry.Opens.openedAt {e : Entry} (opens : e.Opens cfg route) :
    ((e.after cfg).circuit route).openedAt = some e.now := by
  obtain ⟨hs, hs'⟩ := opens
  by_cases hr : route = e.route
  · rw [Breaker.state, Entry.circuit_after, if_pos hr] at hs'
    rw [Entry.circuit_after, if_pos hr]
    exact Circuit.openedAt_of_tripped hs hs'
  · rw [Breaker.state, Entry.circuit_after, if_neg hr] at hs'
    exact absurd hs' hs

/-- A circuit that `e₀` opened and nobody has asked since it cooled down. -/
theorem Entry.Opens.denied {e₀ e : Entry} (opens : e₀.Opens cfg route)
    (same : e.before.circuit route = (e₀.after cfg).circuit route) (asks : e.Asks route)
    (early : e₀.Early cfg e) : e.answer cfg = some .denied := by
  rw [asks.answer_eq, same]
  exact congrArg some <| (Circuit.denied_iff_of_tripped opens.2 opens.openedAt).2 <|
    (Timestamp.since_lt_ofSeconds _ _ _).2 early

theorem Entry.Opens.onTrial {e₀ e : Entry} (opens : e₀.Opens cfg route)
    (same : e.before.circuit route = (e₀.after cfg).circuit route) (asks : e.Asks route)
    (late : ¬ e₀.Early cfg e) :
    e.answer cfg = some .onTrial ∧ (e.after cfg).state route = .halfOpen := by
  have trial : ((e.before.circuit route).request cfg e.now).1 = .onTrial := by
    rw [same]
    refine Circuit.onTrial_of_cooled opens.2 opens.openedAt (by_contra fun hot => late ?_)
    exact (Timestamp.since_lt_ofSeconds _ _ _).1 (Span.not_le.1 hot)
  refine ⟨by rw [asks.answer_eq, trial], ?_⟩
  rw [Breaker.state, Entry.circuit_after, if_pos asks.1.symm, asks.2]
  exact (Circuit.request_onTrial trial).1

/-- An open circuit stays as it is until somebody asks who comes late enough. -/
theorem Traffic.unchanged {pre mid : List Entry} {e₀ : Entry} {b : Breaker}
    (traffic : Traffic cfg (pre ++ e₀ :: mid) b) (opens : e₀.Opens cfg route)
    (early : ∀ d ∈ mid, d.Asks route → e₀.Early cfg d) :
    b.circuit route = (e₀.after cfg).circuit route := by
  induction mid using List.reverseRecOn generalizing b with
  | nil => rw [traffic.of_snoc.2.2]
  | append_singleton mid d ih =>
    rw [← List.cons_append, ← List.append_assoc] at traffic
    obtain ⟨before, -, rfl⟩ := traffic.of_snoc
    have same := ih before fun e he => early e (List.mem_append_left _ he)
    rw [Entry.circuit_after]
    split_ifs with hr
    · by_cases hc : d.call = .request
      · have asks : d.Asks route := ⟨hr.symm, hc⟩
        have denied := opens.denied same asks (early d (by simp) asks)
        rw [asks.answer_eq, Option.some_inj] at denied
        rw [hc, Circuit.Call.run, Circuit.request_denied denied, same]
      · rw [same, Circuit.report_of_tripped opens.2 hc]
    · exact same

/-- A shut circuit lets everybody pass, and a failure opens it if the failures since it was last
cleared fill the window, and only then. An open circuit refuses everybody until it has cooled down
and hears no report in the meantime; who asks first from then on is its trial. -/
theorem Traffic.opening_and_cooldown {h : List Entry} {b : Breaker} (traffic : Traffic cfg h b)
    (route : String) :
    (∀ pre e post, h = pre ++ e :: post → e.before.state route = .shut →
      (e.Asks route → e.answer cfg = some .granted) ∧
      (e.route = route → e.call = .failure →
        ((e.after cfg).state route = .tripped ↔ cfg.failureThreshold ≤
          failuresIn cfg route (e.now.sub (.ofSeconds cfg.windowSecs)) e.now (pre ++ [e])))) ∧
    ∀ pre e₀ mid e post, h = pre ++ e₀ :: (mid ++ e :: post) → e₀.Opens cfg route →
      (e.Asks route → e₀.Early cfg e → e.answer cfg = some .denied) ∧
      ((∀ d ∈ mid, d.Asks route → e₀.Early cfg d) →
        (e.Asks route → ¬ e₀.Early cfg e →
          e.answer cfg = some .onTrial ∧ (e.after cfg).state route = .halfOpen) ∧
        (e.Reports route → (e.after cfg).circuit route = e.before.circuit route)) := by
  refine ⟨?shut, ?opened⟩
  case shut =>
    rintro pre e post rfl hs
    refine ⟨fun asks => ?_, fun hr hc => traffic.upTo.opens_iff hs ⟨hr, hc⟩⟩
    rw [asks.answer_eq, Circuit.request_of_shut hs]
  case opened =>
    rintro pre e₀ mid e post rfl opens
    rw [← List.cons_append, ← List.append_assoc] at traffic
    obtain ⟨before, later, -⟩ := traffic.upTo.of_snoc
    refine ⟨fun asks early => ?_, fun early => ⟨fun asks late => ?_, fun reports => ?_⟩⟩
    · have sooner : ∀ d ∈ mid, d.Asks route → e₀.Early cfg d := fun d hd _ =>
        Int.lt_of_le_of_lt (later d (by simp [hd])) early
      exact opens.denied (before.unchanged opens sooner) asks early
    · exact opens.onTrial (before.unchanged opens early) asks late
    · have tripped : (e.before.circuit route).state = .tripped := by
        rw [before.unchanged opens early]
        exact opens.2
      rw [Entry.circuit_after, if_pos reports.1.symm]
      exact Circuit.report_of_tripped tripped reports.2

theorem Traffic.extend {h : List Entry} {b : Breaker} (traffic : Traffic cfg h b) {acts : List Act}
    (sorted : acts.Pairwise fun a a' => a.now ≤ a'.now)
    (later : ∀ e ∈ h, ∀ a ∈ acts, e.now ≤ a.now) :
    Traffic cfg (h ++ entries cfg b acts) (afterAll cfg b acts) := by
  induction acts generalizing h b with
  | nil => simpa [entries, afterAll] using traffic
  | cons a rest ih =>
    rw [List.pairwise_cons] at sorted
    have := ih (traffic.snoc a fun e he => later e he a (by simp)) sorted.2 fun e he a' ha' => by
      rcases List.mem_append.1 he with he | he
      · exact later e he a' (List.mem_cons_of_mem _ ha')
      · rw [List.mem_singleton.1 he]
        exact sorted.1 a' ha'
    rwa [List.append_assoc] at this

/-- Two failures in a window of half a minute trip a circuit for a minute. -/
def patient : CircuitConfig := { failureThreshold := 2 }

/-- Of four failures the first is followed by a success and the second is old when the others come
in. They open the circuit, which hears no success and has its first trial a minute later. -/
theorem opening_and_cooldown_patient :
    let past := [sampleAct 0 1 .failure, sampleAct 1 1 .success, sampleAct 5 1 .failure,
      sampleAct 50 1 .failure]
    let opening : Entry := ⟨sampleAct 51 1 .failure, afterAll patient empty past⟩
    let hot := [sampleAct 60 1 .request, sampleAct 70 2 .success]
    let trial : Entry :=
      ⟨sampleAct 111 1 .request, afterAll patient (opening.after patient) hot⟩
    opening.Opens patient "r" ∧ trial.answer patient = some .onTrial ∧
      (trial.after patient).state "r" = .halfOpen := by
  intro past opening hot trial
  let acts := past ++ opening.toAct :: (hot ++ [trial.toAct])
  have sorted : acts.Pairwise fun a a' => a.now ≤ a'.now := by decide +kernel
  have traffic : Traffic patient (entries patient empty past ++ opening ::
      (entries patient (opening.after patient) hot ++ [trial])) _ :=
    Traffic.nil.extend sorted (by simp)
  obtain ⟨shut, opened⟩ := traffic.opening_and_cooldown "r"
  have opens : opening.Opens patient "r" := by
    refine ⟨by decide +kernel, ?_⟩
    exact ((shut _ opening _ rfl (by decide +kernel)).2 rfl rfl).2 (by decide +kernel)
  exact ⟨opens, ((opened _ opening _ trial [] rfl opens).2 (by decide +kernel)).1
    ⟨rfl, rfl⟩ (by decide +kernel)⟩

end Breaker

end Courier
