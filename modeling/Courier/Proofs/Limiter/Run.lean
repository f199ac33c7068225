import Mathlib.Data.List.Induction
import Courier.Proofs.Limiter.Log

/-! Runs of a limiter: requests and looks at its use in the order of their times, and refunds of
what was let through. In every run the limiter answers as the exact log would. -/

namespace Courier.Limiter

open CallLog

inductive Call where
  | request (route : String) (now : Timestamp)
  | refund (route : String) (taken : Timestamp)
  | usage (now : Timestamp)

/-- A call and its answer. -/
inductive Entry where
  | request (route : String) (now : Timestamp) (allowed : Bool)
  | refund (route : String) (taken : Timestamp)
  | usage (now : Timestamp) (uses : List WindowUse)

namespace Entry

def time? : Entry → Option Timestamp
  | request _ now _ => some now
  | refund _ _ => none
  | usage now _ => some now

/-- Whether room was taken or given back. -/
def takesOrGives : Entry → Bool
  | request _ _ allowed => allowed
  | refund _ _ => true
  | usage _ _ => false

end Entry

def Call.run (c : RateLimitConfig) (s : Limiter) : Call → Entry × Limiter
  | request route now =>
    (.request route now (s.request c route now).1.allowed, (s.request c route now).2)
  | refund route taken => (.refund route taken, s.refund c route taken)
  | usage now => (.usage now (s.usage c now).1, (s.usage c now).2)

/-- The log after one more entry. -/
def record (log : CallLog) : Entry → CallLog
  | .request route now true => log ++ [(route, now)]
  | .refund route taken => log.erase (route, taken)
  | _ => log

/-- What was let through and not given back. -/
def outstanding (h : List Entry) : CallLog := h.foldl record []

/-- The routes that were asked about, in the order in which they first were. -/
def asked (h : List Entry) : List String :=
  h.foldl (fun routes e =>
    match e with
    | .request route _ _ => if route ∈ routes then routes else routes ++ [route]
    | _ => routes) []

/-- `now` is not before the time of any call so far. -/
def NotBefore (h : List Entry) (now : Timestamp) : Prop := ∀ e ∈ h, ∀ t ∈ e.time?, t ≤ now

/-- The clock does not go back, and only room that is taken is given back. -/
def Call.Fits (h : List Entry) : Call → Prop
  | request _ now => NotBefore h now
  | refund route taken => (route, taken) ∈ outstanding h
  | usage now => NotBefore h now

inductive Run (c : RateLimitConfig) : List Entry → Limiter → Prop where
  | nil : Run c [] empty
  | snoc {h : List Entry} {s : Limiter} (run : Run c h s) (call : Call) (fits : call.Fits h) :
      Run c (h ++ [(call.run c s).1]) (call.run c s).2

variable {c : RateLimitConfig} {h : List Entry} {s : Limiter}

theorem outstanding_snoc (h : List Entry) (e : Entry) :
    outstanding (h ++ [e]) = record (outstanding h) e := by
  simp [outstanding]

theorem notBefore_snoc {e : Entry} {t : Timestamp} :
    NotBefore (h ++ [e]) t ↔ NotBefore h t ∧ ∀ now ∈ e.time?, now ≤ t := by
  simp only [NotBefore, List.mem_append, List.mem_singleton, or_imp, forall_and, forall_eq]

/-- Room is only taken at the time of a call. -/
theorem le_of_mem_outstanding {x : String × Timestamp} (hx : x ∈ outstanding h) {now : Timestamp}
    (hnow : NotBefore h now) : x.2 ≤ now := by
  induction h using List.reverseRecOn with
  | nil => cases hx
  | append_singleton h e ih =>
    obtain ⟨before, last⟩ := notBefore_snoc.1 hnow
    rw [outstanding_snoc] at hx
    match e with
    | .request route t true =>
      rcases List.mem_append.1 hx with hx | hx
      · exact ih hx before
      · rw [List.mem_singleton.1 hx]
        exact last t rfl
    | .refund route taken => exact ih (List.mem_of_mem_erase hx) before
    | .request _ _ false | .usage _ _ => exact ih hx before

theorem keys_request (c : RateLimitConfig) (route : String) (now : Timestamp) (s : Limiter) :
    (s.request c route now).2.routes.keys =
      if route ∈ s.routes.keys then s.routes.keys else s.routes.keys ++ [route] := by
  rcases request_cases c route now s with ⟨-, -, after⟩ | ⟨-, -, after⟩
  · rw [after, Table.keys_insert]
  · rw [after, Table.keys_insert]

/-- The windows agree with the log of the run. -/
theorem Run.matches (run : Run c h s) :
    Matches c (NotBefore h) (outstanding h) s ∧ s.routes.keys = asked h := by
  induction run with
  | nil => exact ⟨.empty c _, rfl⟩
  | @snoc h s run call fits ih =>
    obtain ⟨ih, keys⟩ := ih
    rw [outstanding_snoc, asked, List.foldl_append, ← asked, ← keys]
    cases call with
    | request route now =>
      have after := (ih.request fits (fun x hx => le_of_mem_outstanding hx fits) route).2
      refine ⟨?_, keys_request c route now s⟩
      cases hd : (s.request c route now).1.allowed with
      | true =>
        rw [hd] at after
        simp only [Call.run, hd, record]
        exact after.mono fun t ht => (notBefore_snoc.1 ht).imp_right fun last => last now rfl
      | false =>
        rw [hd] at after
        simp only [Call.run, hd, record]
        exact after.mono fun t ht => (notBefore_snoc.1 ht).imp_right fun last => last now rfl
    | refund route taken =>
      exact ⟨(ih.refund fits).mono fun t ht => (notBefore_snoc.1 ht).1, Table.keys_modify _ _ _⟩
    | usage now =>
      exact ⟨(ih.settle now).mono fun t ht =>
        (notBefore_snoc.1 ht).imp_right fun last => last now rfl, Table.keys_mapValues _ _⟩

/-- What the limiter answers next is what the log of its run says. -/
theorem Run.answers (run : Run c h s) {now : Timestamp} (hnow : NotBefore h now) :
    (∀ route, (s.request c route now).1.allowed = true ↔
      (outstanding h).HasRoom c.overall now everywhere ∧
        (outstanding h).HasRoom (c.forRoute route) now (on route)) ∧
    (s.usage c now).1 = (outstanding h).uses c now (asked h) := by
  obtain ⟨agree, keys⟩ := run.matches
  have past : ∀ x ∈ outstanding h, x.2 ≤ now := fun x hx => le_of_mem_outstanding hx hnow
  exact ⟨fun route => (agree.request hnow past route).1, keys ▸ agree.usage hnow past⟩

theorem outstanding_filter (h : List Entry) :
    outstanding (h.filter Entry.takesOrGives) = outstanding h := by
  induction h using List.reverseRecOn with
  | nil => rfl
  | append_singleton h e ih =>
    rw [List.filter_append, outstanding_snoc, ← ih]
    match e with
    | .request _ _ true | .refund _ _ => exact outstanding_snoc _ _
    | .request _ _ false | .usage _ _ => simp [Entry.takesOrGives, record]

theorem NotBefore.filter {now : Timestamp} (hnow : NotBefore h now) (p : Entry → Bool) :
    NotBefore (h.filter p) now := fun e he => hnow e (List.mem_filter.1 he).1

/-- Without the calls that were refused and without looks at the use, all other calls are answered
as before. -/
theorem Run.filter (run : Run c h s) : ∃ s', Run c (h.filter Entry.takesOrGives) s' := by
  induction run with
  | nil => exact ⟨_, .nil⟩
  | @snoc h s run call fits ih =>
    obtain ⟨s', run'⟩ := ih
    rw [List.filter_append]
    cases call with
    | request route now =>
      cases hd : (s.request c route now).1.allowed with
      | false =>
        simp only [Call.run, hd]
        exact ⟨s', by simpa [Entry.takesOrGives] using run'⟩
      | true =>
        have fits' := NotBefore.filter fits Entry.takesOrGives
        have again : (s'.request c route now).1.allowed = true := by
          rw [(run'.answers fits').1 route, outstanding_filter, ← (run.answers fits).1 route]
          exact hd
        have next := run'.snoc (.request route now) fits'
        simp only [Call.run, again] at next
        simp only [Call.run, hd]
        exact ⟨_, next⟩
    | refund route taken =>
      have fits' : (route, taken) ∈ outstanding (h.filter Entry.takesOrGives) := by
        rw [outstanding_filter]
        exact fits
      exact ⟨_, run'.snoc (.refund route taken) fits'⟩
    | usage now => exact ⟨s', by simpa [Call.run, Entry.takesOrGives] using run'⟩

/-- The limiter is the exact log of its calls: it grants room exactly when the log has room overall
and on the route, and reports what the log has in each window; and what it refused or was only
looked at for has no influence on any other answer. -/
theorem Run.equals_log (run : Run c h s) :
    (∀ now, NotBefore h now →
      (∀ route, (s.request c route now).1.allowed = true ↔
        (outstanding h).HasRoom c.overall now everywhere ∧
          (outstanding h).HasRoom (c.forRoute route) now (on route)) ∧
      (s.usage c now).1 = (outstanding h).uses c now (asked h)) ∧
    ∃ s', Run c (h.filter Entry.takesOrGives) s' :=
  ⟨fun _ hnow => run.answers hnow, run.filter⟩

instance (h : List Entry) (now : Timestamp) : Decidable (NotBefore h now) :=
  inferInstanceAs (Decidable (∀ e ∈ h, ∀ t ∈ e.time?, t ≤ now))

instance (h : List Entry) : (call : Call) → Decidable (call.Fits h)
  | .request _ now => inferInstanceAs (Decidable (NotBefore h now))
  | .refund route taken => inferInstanceAs (Decidable ((route, taken) ∈ outstanding h))
  | .usage now => inferInstanceAs (Decidable (NotBefore h now))

def sampleLimits : RateLimitConfig := ⟨some ⟨2, 60⟩, some ⟨1, 10⟩, []⟩

def sampleTime (secs : Int) : Timestamp := Timestamp.epoch.add (.ofSeconds secs)

/-- A call is refused, the one before it is given back, and the next are let through. -/
theorem equals_log_sample : ∃ h s, Run sampleLimits h s ∧
    outstanding h = [("a", sampleTime 6), ("b", sampleTime 8)] ∧
    (s.request sampleLimits "c" (sampleTime 9)).1.allowed = false ∧
    (s.request sampleLimits "c" (sampleTime 66)).1.allowed = true := by
  have asked := Run.nil (c := sampleLimits)
    |>.snoc (.request "a" (sampleTime 0)) (by decide +kernel)
    |>.snoc (.request "a" (sampleTime 5)) (by decide +kernel)
  have run := asked.snoc (.refund "a" (sampleTime 0)) (by decide +kernel)
    |>.snoc (.request "a" (sampleTime 6)) (by decide +kernel)
    |>.snoc (.usage (sampleTime 7)) (by decide +kernel)
    |>.snoc (.request "b" (sampleTime 8)) (by decide +kernel)
  have log := run.equals_log.1
  refine ⟨_, _, run, by decide +kernel, ?_, ?_⟩
  · rw [← Bool.not_eq_true, ((log (sampleTime 9) (by decide +kernel)).1 "c")]
    decide +kernel
  · rw [((log (sampleTime 66) (by decide +kernel)).1 "c")]
    decide +kernel

end Courier.Limiter
