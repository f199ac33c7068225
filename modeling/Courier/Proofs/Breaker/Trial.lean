import Courier.Proofs.Breaker.Run

/-! Who may pass while a caller is on trial. The slot belongs to the caller that got it until it
reports or falls silent for too long; but a report carries no caller, only a route, so any report
that comes in on the route is taken for that of the trial. -/

namespace Courier

namespace Circuit

variable {cfg : CircuitConfig} {c : Circuit} {now t u : Timestamp}

/-- Nothing keeps the next caller out. -/
def IsAjar (c : Circuit) : Prop :=
  c.state = .shut ∨ (c.state = .halfOpen ∧ c.trialStartedAt = none)

theorem IsAjar.not_tripped (h : c.IsAjar) : c.state ≠ .tripped := by
  rcases h with hs | ⟨hs, -⟩ <;> rw [hs] <;> nofun

/-- Whoever gets a trial takes the slot. -/
theorem request_onTrial (h : (c.request cfg now).1 = .onTrial) :
    (c.request cfg now).2.circuit.state = .halfOpen ∧
      (c.request cfg now).2.circuit.trialStartedAt = some now := by
  cases hs : c.state with
  | shut => simp [request, hs] at h
  | tripped =>
    simp only [request, hs] at h ⊢
    split_ifs with hc
    · exact ⟨rfl, rfl⟩
    · simp [hc] at h
  | halfOpen =>
    simp only [request, hs] at h ⊢
    split_ifs with hc
    · simp [hc] at h
    · exact ⟨rfl, rfl⟩

theorem request_denied (h : (c.request cfg now).1 = .denied) :
    (c.request cfg now).2.circuit = c := by
  cases hs : c.state with
  | shut => simp [request, hs] at h
  | tripped | halfOpen =>
    simp only [request, hs] at h ⊢
    split_ifs with hc
    · simp [hc, Move.stay] at h ⊢
    · simp [hc, Move.stay] at h ⊢

theorem denied_of_taken (hs : c.state = .halfOpen) (ht : c.trialStartedAt = some t)
    (soon : now.since t < Span.ofSeconds cfg.trialTimeoutSecs) :
    (c.request cfg now).1 = .denied := by
  simp [request, hs, ht, soon]

theorem IsAjar.not_denied (h : c.IsAjar) : (c.request cfg now).1 ≠ .denied := by
  rcases h with hs | ⟨hs, ht⟩
  · simp [request, hs]
  · simp [request, hs, ht]

theorem denied_iff_of_tripped (hs : c.state = .tripped) (hu : c.openedAt = some u) :
    (c.request cfg now).1 = .denied ↔ now.since u < Span.ofSeconds cfg.cooldownSecs := by
  rw [← Span.not_le]
  simp only [request, hs, hu, decide_eq_true_eq]
  split_ifs with hc <;> simp [hc]

/-- A report to a circuit that is not tripped leaves it ajar, or it was a failure that trips it. -/
theorem report_cases (cfg : CircuitConfig) (now : Timestamp) (hs : c.state ≠ .tripped)
    {call : Call} (hc : call ≠ .request) :
    (call.run cfg now c).2.IsAjar ∨
      (call = .failure ∧ (call.run cfg now c).2.state = .tripped ∧
        (call.run cfg now c).2.openedAt = some now) := by
  cases call with
  | request => exact absurd rfl hc
  | success =>
    left
    cases hst : c.state with
    | tripped => exact absurd hst hs
    | shut => simp [Call.run, success, hst, Move.stay, IsAjar]
    | halfOpen =>
      simp only [Call.run, success, hst]
      split_ifs <;> simp [IsAjar, enter, Move.stay]
  | cancelTrial =>
    left
    cases hst : c.state with
    | tripped => exact absurd hst hs
    | shut => simp [Call.run, cancelTrial, hst, IsAjar]
    | halfOpen => simp [Call.run, cancelTrial, hst, IsAjar]
  | failure =>
    cases hst : c.state with
    | tripped => exact absurd hst hs
    | shut =>
      simp only [Call.run, failure, hst]
      split_ifs
      · exact Or.inr ⟨trivial, rfl, rfl⟩
      · exact Or.inl (Or.inl rfl)
    | halfOpen =>
      right
      simp [Call.run, failure, hst, enter]

/-- A tripped circuit takes no notice of reports. -/
theorem report_of_tripped (hs : c.state = .tripped) {call : Call} (hc : call ≠ .request) :
    (call.run cfg now c).2 = c := by
  cases call with
  | request => exact absurd rfl hc
  | success => simp [Call.run, success, hs, Move.stay]
  | failure => simp [Call.run, failure, hs, Move.stay]
  | cancelTrial => simp [Call.run, cancelTrial, hs]

end Circuit

namespace Breaker

variable {cfg : CircuitConfig} {route : String} {t : Timestamp} {p : List Entry} {c : Circuit}

/-- A failure that is reported on `route` trips the circuit. -/
def Entry.Trips (cfg : CircuitConfig) (e : Entry) (route : String) : Prop :=
  e.route = route ∧ e.call = .failure ∧ e.before.state route ≠ .tripped ∧
    (e.after cfg).state route = .tripped

instance (e : Entry) : Decidable (e.Trips cfg route) :=
  inferInstanceAs (Decidable (_ ∧ _ ∧ _ ∧ _))

theorem Entry.Trips.reports {e : Entry} (h : e.Trips cfg route) : e.Reports route :=
  ⟨h.1, by rw [h.2.1]; nofun⟩

theorem Entry.circuit_after (e : Entry) (route : String) : (e.after cfg).circuit route =
    if route = e.route then (e.call.run cfg e.now (e.before.circuit route)).2
    else e.before.circuit route := (e.toAct.run_circuit cfg e.before).2 route

theorem Entry.Asks.answer_eq {e : Entry} (h : e.Asks route) :
    e.answer cfg = some ((e.before.circuit route).request cfg e.now).1 := by
  have := (e.toAct.run_circuit cfg e.before).1
  rw [h.1, h.2] at this
  exact this

/-- Only those who ask are answered. -/
theorem Entry.asks_of_answer {e : Entry} {passage : Passage} (h : e.answer cfg = some passage) :
    e.Asks e.route := by
  rw [answer, (e.toAct.run_circuit cfg e.before).1] at h
  refine ⟨rfl, ?_⟩
  cases hc : e.call with
  | request => rfl
  | success | failure | cancelTrial =>
    rw [hc] at h
    cases h

/-- The circuit after a trial that began at `t` and the entries `p`, none of which lets anybody
pass: still in the hands of the trial, ajar, or tripped again. -/
inductive Standing (cfg : CircuitConfig) (route : String) (t : Timestamp) (p : List Entry)
    (c : Circuit) : Prop where
  | taken : (∀ d ∈ p, ¬ d.Reports route) → c.state = .halfOpen → c.trialStartedAt = some t →
      Standing cfg route t p c
  | ajar : (∃ d ∈ p, d.Reports route) → (∀ d ∈ p, ¬ d.Trips cfg route) → c.IsAjar →
      Standing cfg route t p c
  | tripped (u : Timestamp) : (∃ d ∈ p, d.Trips cfg route ∧ d.now = u) →
      (∀ d ∈ p, d.Trips cfg route → d.now = u) → c.state = .tripped → c.openedAt = some u →
      Standing cfg route t p c

namespace Standing

/-- Where a circuit stands, nobody is let through exactly if no report has come in, or one has
tripped the circuit and it has not cooled down. -/
theorem denied_iff (h : Standing cfg route t p c) {now : Timestamp}
    (soon : now.since t < Span.ofSeconds cfg.trialTimeoutSecs) :
    (c.request cfg now).1 = .denied ↔ (∀ d ∈ p, ¬ d.Reports route) ∨
      ∃ d ∈ p, d.Trips cfg route ∧ now.since d.now < Span.ofSeconds cfg.cooldownSecs := by
  cases h with
  | taken quiet hs ht => exact iff_of_true (Circuit.denied_of_taken hs ht soon) (Or.inl quiet)
  | ajar heard untripped hc =>
    refine iff_of_false hc.not_denied ?_
    rintro (quiet | ⟨d, hd, trips, -⟩)
    · obtain ⟨d, hd, reports⟩ := heard
      exact quiet d hd reports
    · exact untripped d hd trips
  | tripped u by_ only hs hu =>
    rw [Circuit.denied_iff_of_tripped hs hu]
    obtain ⟨d, hd, trips, rfl⟩ := by_
    constructor
    · exact fun hot => Or.inr ⟨d, hd, trips, hot⟩
    · rintro (quiet | ⟨d', hd', trips', hot⟩)
      · exact absurd trips.reports (quiet d hd)
      · rwa [only d' hd' trips'] at hot

theorem untripped (h : Standing cfg route t p c) (hc : c.state ≠ .tripped) :
    ∀ d ∈ p, ¬ d.Trips cfg route := by
  cases h with
  | taken quiet => exact fun d hd trips => quiet d hd trips.reports
  | ajar _ untripped => exact untripped
  | tripped _ _ _ hs => exact absurd hs hc

/-- A circuit that does not change stands as it stood: no report has come in, or it was tripped. -/
theorem snoc_same (h : Standing cfg route t p c) {d : Entry} (hd : ¬ d.Trips cfg route)
    (unmoved : d.Reports route → c.state = .tripped) : Standing cfg route t (p ++ [d]) c := by
  have untripped : ∀ {Q : Entry → Prop}, (∀ e ∈ p, e.Trips cfg route → Q e) →
      ∀ e ∈ p ++ [d], e.Trips cfg route → Q e := by
    intro Q hp e he trips
    rcases List.mem_append.1 he with he | he
    · exact hp e he trips
    · exact absurd (List.mem_singleton.1 he ▸ trips) hd
  cases h with
  | taken quiet hs ht =>
    refine .taken (fun e he reports => ?_) hs ht
    rcases List.mem_append.1 he with he | he
    · exact quiet e he reports
    · rw [unmoved (List.mem_singleton.1 he ▸ reports)] at hs
      cases hs
  | ajar heard none_ hc =>
    obtain ⟨d', hd', reports⟩ := heard
    exact .ajar ⟨d', List.mem_append_left _ hd', reports⟩ (untripped none_) hc
  | tripped u by_ only hs hu =>
    obtain ⟨d', hd', trips⟩ := by_
    exact .tripped u ⟨d', List.mem_append_left _ hd', trips⟩ (untripped only) hs hu

theorem snoc_report {d : Entry} (h : Standing cfg route t p (d.before.circuit route))
    (hd : d.Reports route) :
    Standing cfg route t (p ++ [d]) ((d.after cfg).circuit route) := by
  have after : (d.after cfg).circuit route =
      (d.call.run cfg d.now (d.before.circuit route)).2 := by
    rw [Entry.circuit_after, if_pos hd.1.symm]
  have last : d ∈ p ++ [d] := List.mem_append_right _ (List.mem_singleton_self d)
  by_cases hs : (d.before.circuit route).state = .tripped
  · rw [after, Circuit.report_of_tripped hs hd.2]
    exact h.snoc_same (fun trips => trips.2.2.1 hs) fun _ => hs
  · have before := h.untripped hs
    rcases Circuit.report_cases cfg d.now hs hd.2 with hajar | ⟨hf, ht, hu⟩
    · rw [← after] at hajar
      refine .ajar ⟨d, last, hd⟩ (fun e he trips => ?_) hajar
      rcases List.mem_append.1 he with he | he
      · exact before e he trips
      · rw [List.mem_singleton.1 he] at trips
        exact hajar.not_tripped trips.2.2.2
    · rw [← after] at ht hu
      refine .tripped d.now ⟨d, last, ⟨hd.1, hf, hs, ht⟩, rfl⟩ (fun e he trips => ?_) ht hu
      rcases List.mem_append.1 he with he | he
      · exact absurd trips (before e he)
      · rw [List.mem_singleton.1 he]

/-- One entry by which nobody passes. -/
theorem snoc {d : Entry} (h : Standing cfg route t p (d.before.circuit route))
    (denied : d.Asks route → d.answer cfg = some .denied) :
    Standing cfg route t (p ++ [d]) ((d.after cfg).circuit route) := by
  by_cases hr : d.Reports route
  · exact h.snoc_report hr
  · have same : (d.after cfg).circuit route = d.before.circuit route := by
      rw [Entry.circuit_after]
      split_ifs with he
      · have asks : d.Asks route := ⟨he.symm, by_contra fun hc => hr ⟨he.symm, hc⟩⟩
        rw [asks.2]
        refine Circuit.request_denied (Option.some.inj ?_)
        rw [← asks.answer_eq, denied asks]
      · rfl
    rw [same]
    exact h.snoc_same (fun trips => hr trips.reports) fun reports => absurd reports hr

end Standing

variable {pre mid : List Entry} {e₀ : Entry} {b : Breaker}

/-- As long as nobody is let through after a trial has begun, the circuit stands as the entries
since say. -/
theorem Run.standing (run : Run cfg (pre ++ e₀ :: mid) b) (trial : e₀.answer cfg = some .onTrial)
    (denied : ∀ e ∈ mid, e.Asks e₀.route → e.answer cfg = some .denied) :
    Standing cfg e₀.route e₀.now mid (b.circuit e₀.route) := by
  induction mid using List.reverseRecOn generalizing b with
  | nil =>
    obtain ⟨-, -, rfl⟩ := Run.of_snoc run
    have asks := Entry.asks_of_answer trial
    have taken := Circuit.request_onTrial (Option.some.inj (asks.answer_eq.symm.trans trial))
    rw [Entry.circuit_after, if_pos rfl, asks.2]
    exact .taken (by simp) taken.1 taken.2
  | append_singleton mid d ih =>
    rw [← List.cons_append, ← List.append_assoc] at run
    obtain ⟨before, -, rfl⟩ := run.of_snoc
    exact (ih before fun e he => denied e (List.mem_append_left _ he)).snoc
      (denied d (List.mem_append_right _ (List.mem_singleton_self d)))

/-- The first request after a trial and entries by which nobody passed. -/
theorem Run.denied_iff {e : Entry} (run : Run cfg (pre ++ e₀ :: (mid ++ [e])) b)
    (trial : e₀.answer cfg = some .onTrial)
    (denied : ∀ d ∈ mid, d.Asks e₀.route → d.answer cfg = some .denied) (asks : e.Asks e₀.route)
    (soon : e.now.since e₀.now < Span.ofSeconds cfg.trialTimeoutSecs) :
    e.answer cfg = some .denied ↔ (∀ d ∈ mid, ¬ d.Reports e₀.route) ∨
      ∃ d ∈ mid, d.Trips cfg e₀.route ∧ e.now.since d.now < Span.ofSeconds cfg.cooldownSecs := by
  rw [← List.cons_append, ← List.append_assoc] at run
  rw [asks.answer_eq, Option.some_inj]
  exact (run.of_snoc.1.standing trial denied).denied_iff soon

/-- Every request between a trial's start and its timeout is refused, exactly if each of them comes
before any other report on the route, or soon after one that tripped the circuit again. -/
theorem Run.all_denied_iff (run : Run cfg (pre ++ e₀ :: mid) b)
    (trial : e₀.answer cfg = some .onTrial)
    (soon : ∀ e ∈ mid, e.now.since e₀.now < Span.ofSeconds cfg.trialTimeoutSecs) :
    (∀ e ∈ mid, e.Asks e₀.route → e.answer cfg = some .denied) ↔
      ∀ p e q, mid = p ++ e :: q → e.Asks e₀.route → (∀ d ∈ p, ¬ d.Reports e₀.route) ∨
        ∃ d ∈ p, d.Trips cfg e₀.route ∧ e.now.since d.now < Span.ofSeconds cfg.cooldownSecs := by
  -- the run up to and with an entry of `mid`
  have upTo : ∀ p e q, mid = p ++ e :: q → ∃ b', Run cfg (pre ++ e₀ :: (p ++ [e])) b' := by
    rintro p e q rfl
    have split : Run cfg (pre ++ e₀ :: (p ++ [e]) ++ q) b := by simpa using run
    exact split.of_append q
  constructor
  · rintro denied p e q rfl asks
    obtain ⟨b', run'⟩ := upTo p e q rfl
    have he : e ∈ p ++ e :: q := List.mem_append_right _ List.mem_cons_self
    exact (run'.denied_iff trial (fun d hd => denied d (List.mem_append_left _ hd)) asks
      (soon e he)).1 (denied e he asks)
  · intro each
    suffices h : ∀ p q, mid = p ++ q → ∀ e ∈ p, e.Asks e₀.route → e.answer cfg = some .denied from
      h mid [] (by simp)
    intro p
    induction p using List.reverseRecOn with
    | nil => simp
    | append_singleton p e ih =>
      intro q hq d hd asks
      rw [List.append_assoc, List.singleton_append] at hq
      have before := ih (e :: q) hq
      rcases List.mem_append.1 hd with hd | hd
      · exact before d hd asks
      · rw [List.mem_singleton.1 hd] at asks ⊢
        obtain ⟨b', run'⟩ := upTo p e q hq
        have he : e ∈ mid := hq ▸ List.mem_append_right _ List.mem_cons_self
        exact (run'.denied_iff trial before asks (soon e he)).2 (each p e q hq asks)

/-- Where nobody else is out and nobody passes, no report but the trial's own can come in. -/
theorem Run.not_reports {e : Entry} (run : Run cfg (pre ++ e₀ :: (mid ++ [e])) b)
    (alone : ∀ caller, ¬ IsOut cfg pre caller e₀.route)
    (denied : ∀ d ∈ mid, d.Asks e₀.route → d.answer cfg = some .denied)
    (other : e.caller ≠ e₀.caller) : ¬ e.Reports e₀.route := by
  intro reports
  rw [← List.cons_append, ← List.append_assoc] at run
  obtain ⟨⟨d, hd, hcaller, passes⟩, unreported⟩ := run.of_snoc.2.1.isOut reports.2
  rw [reports.1] at passes unreported
  rcases List.mem_append.1 hd with hd | hd
  · exact alone e.caller ⟨⟨d, hd, hcaller, passes⟩,
      fun d' hd' => unreported d' (List.mem_append_left _ hd')⟩
  · rcases List.mem_cons.1 hd with rfl | hd
    · exact other hcaller.symm
    · exact passes.2 (denied d hd passes.1)

/-- A trial that begins when nobody else is out keeps all others out. -/
theorem Run.all_denied_of_alone (run : Run cfg (pre ++ e₀ :: mid) b)
    (trial : e₀.answer cfg = some .onTrial) (alone : ∀ caller, ¬ IsOut cfg pre caller e₀.route)
    (silent : ∀ e ∈ mid, e.caller ≠ e₀.caller)
    (soon : ∀ e ∈ mid, e.now.since e₀.now < Span.ofSeconds cfg.trialTimeoutSecs) :
    ∀ e ∈ mid, e.Asks e₀.route → e.answer cfg = some .denied := by
  suffices h : (∀ e ∈ mid, ¬ e.Reports e₀.route) ∧
      ∀ e ∈ mid, e.Asks e₀.route → e.answer cfg = some .denied from h.2
  induction mid using List.reverseRecOn generalizing b with
  | nil => simp
  | append_singleton mid e ih =>
    have last : e ∈ mid ++ [e] := List.mem_append_right _ (List.mem_singleton_self e)
    have split : Run cfg (pre ++ e₀ :: mid ++ [e]) b := by simpa using run
    obtain ⟨b', run'⟩ := split.of_append [e]
    obtain ⟨quiet, denied⟩ := ih run' (fun d hd => silent d (List.mem_append_left _ hd))
      fun d hd => soon d (List.mem_append_left _ hd)
    simp only [List.mem_append, List.mem_singleton, or_imp, forall_and, forall_eq]
    exact ⟨⟨quiet, run.not_reports alone denied (silent e last)⟩, denied,
      fun asks => (run.denied_iff trial denied asks (soon e last)).2 (Or.inl quiet)⟩

/-- While a caller is on trial and neither has reported nor run out of time, all others are refused
exactly as long as no report of another caller comes in, or within the cooldown after one that
tripped the circuit again. If nobody else was out when the trial began, all are refused. -/
theorem Run.trial_exclusive_iff (run : Run cfg (pre ++ e₀ :: mid) b)
    (trial : e₀.answer cfg = some .onTrial) (silent : ∀ e ∈ mid, e.caller ≠ e₀.caller)
    (soon : ∀ e ∈ mid, e.now.since e₀.now < Span.ofSeconds cfg.trialTimeoutSecs) :
    ((∀ e ∈ mid, e.Asks e₀.route → e.answer cfg = some .denied) ↔
      ∀ p e q, mid = p ++ e :: q → e.Asks e₀.route → (∀ d ∈ p, ¬ d.Reports e₀.route) ∨
        ∃ d ∈ p, d.Trips cfg e₀.route ∧ e.now.since d.now < Span.ofSeconds cfg.cooldownSecs) ∧
    ((∀ caller, ¬ IsOut cfg pre caller e₀.route) →
      ∀ e ∈ mid, e.Asks e₀.route → e.answer cfg = some .denied) :=
  ⟨run.all_denied_iff trial soon, fun alone => run.all_denied_of_alone trial alone silent soon⟩

/-- A single failure trips a circuit. -/
def touchy : CircuitConfig := { failureThreshold := 1 }

def sampleAct (secs : Int) (caller : Nat) (call : Circuit.Call) : Act :=
  ⟨Timestamp.epoch.add (.ofSeconds secs), caller, "r", call⟩

/-- The entry by which caller 9 asks, after the acts in `acts`. -/
def trialAfter (secs : Int) (acts : List Act) : Entry :=
  ⟨sampleAct secs 9 .request, afterAll touchy empty acts⟩

/-- The only caller fails and the circuit trips. Later one caller is on trial and two more ask. -/
theorem trial_exclusive_iff_alone :
    let past := [sampleAct 0 1 .request, sampleAct 0 1 .failure]
    let trial := trialAfter 60 past
    let acts := [sampleAct 61 2 .request, sampleAct 300 3 .request]
    trial.answer touchy = some .onTrial ∧
      ∀ e ∈ entries touchy (trial.after touchy) acts, e.answer touchy = some .denied := by
  intro past trial acts
  have onTrial : trial.answer touchy = some .onTrial := by decide +kernel
  have run : Run touchy (entries touchy empty past ++
      trial :: entries touchy (trial.after touchy) acts) _ :=
    Run.nil.extend (past ++ trial.toAct :: acts) (by decide +kernel)
  have reported : ∀ e ∈ entries touchy empty past, ∃ d ∈ entries touchy empty past,
      d.caller = e.caller ∧ d.Reports trial.route := by decide +kernel
  have alone : ∀ caller, ¬ IsOut touchy (entries touchy empty past) caller trial.route := by
    rintro _ ⟨⟨e, he, rfl, -⟩, unreported⟩
    obtain ⟨d, hd, hcaller, reports⟩ := reported e he
    exact unreported d hd hcaller reports
  have denied := (run.trial_exclusive_iff onTrial (by decide +kernel) (by decide +kernel)).2 alone
  exact ⟨onTrial, fun e he => denied e he
    ((by decide +kernel : ∀ e ∈ entries touchy (trial.after touchy) acts, e.Asks trial.route) e he)⟩

/-- Two callers are let through, one of them fails and the circuit trips. Later a third is on trial,
when the first reports its success: the next caller is let through as well. -/
theorem exists_two_on_trial : ∃ pre mid e₀ b, Run touchy (pre ++ e₀ :: mid) b ∧
    e₀.answer touchy = some .onTrial ∧ (∀ e ∈ mid, e.caller ≠ e₀.caller) ∧
    (∀ e ∈ mid, e.now.since e₀.now < Span.ofSeconds touchy.trialTimeoutSecs) ∧
    ∃ e ∈ mid, e.Asks e₀.route ∧ e.answer touchy = some .onTrial := by
  let past := [sampleAct 0 1 .request, sampleAct 0 2 .request, sampleAct 0 2 .failure]
  let trial := trialAfter 60 past
  let acts := [sampleAct 60 1 .success, sampleAct 60 3 .request]
  have run : Run touchy _ _ := Run.nil.extend (past ++ trial.toAct :: acts) (by decide +kernel)
  exact ⟨entries touchy empty past, entries touchy (trial.after touchy) acts, trial, _, run,
    by decide +kernel, by decide +kernel, by decide +kernel, by decide +kernel⟩

end Breaker

end Courier
