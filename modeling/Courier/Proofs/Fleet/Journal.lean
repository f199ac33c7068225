import Courier.Proofs.Engine.Steady
import Courier.Proofs.Fleet.Turn
import Courier.Proofs.Worker

/-! How far apart two sends on a route are. A worker asks pacing how long to wait, passes the other
gates, and records its send only then. A send is late enough if its worker asked after the send
before it was recorded; a worker that had asked already knows nothing of that send. -/

namespace Courier

open Plan

namespace Fleet

/-- What an errand did, and the engine as it found it. -/
structure Entry where
  /-- The number of the errand. -/
  errand : ℕ
  deed : Deed
  engine : Engine

/-- What the turn of an errand adds to what has been done. -/
def news (n : ℕ) (e : Engine) (x x' : Errand) : List Entry :=
  (x'.past.drop x.past.length).map fun d => ⟨n, d, e⟩

/-- A run of a fleet from the engine `e` on, and all that its errands have done in it. The settings
stay, the clock does not run back, and nobody but the errands records a send. -/
inductive Journal (e : Engine) : List Entry → Fleet → Prop where
  | start : Journal e [] (idle e)
  | begin {h : List Entry} {f : Fleet} (cfg : Config) (worker : String) (job : Job) :
      Journal e h f → Journal e h { f with errands := f.errands ++ [.begin cfg worker job] }
  | move {h : List Entry} {f : Fleet} {n : ℕ} {x x' : Errand} {e' : Engine} : Journal e h f →
      f.errands[n]? = some x → x.Move f.engine e' x' →
      Journal e (h ++ news n f.engine x x') ⟨e', f.errands.set n x'⟩
  | outside {h : List Entry} {f : Fleet} {e' : Engine} : Journal e h f → f.engine.Outside e' →
      e'.config = f.engine.config → f.engine.now ≤ e'.now →
      (∀ route, Pacing.lastSent e'.pacing route = Pacing.lastSent f.engine.pacing route) →
      Journal e h { f with engine := e' }

/-- The last send on `route`, which was `start` at first. -/
def lastSend (route : String) (start : Option Timestamp) (h : List Entry) : Option Timestamp :=
  h.foldl (fun last z => (z.deed.sentOn? route).or last) start

theorem lastSend_snoc (route : String) (start : Option Timestamp) (h : List Entry) (z : Entry) :
    lastSend route start (h ++ [z]) = (z.deed.sentOn? route).or (lastSend route start h) := by
  simp [lastSend]

/-- With no send since, the last send is the one there was. -/
theorem lastSend_of_none {route : String} {pre mid : List Entry} {x : Entry} {s : Timestamp}
    (start : Option Timestamp) (sent : x.deed.sentOn? route = some s)
    (between : ∀ z ∈ mid, z.deed.sentOn? route = none) :
    lastSend route start (pre ++ x :: mid) = some s := by
  induction mid using List.reverseRecOn with
  | nil => rw [lastSend_snoc, sent, Option.some_or]
  | append_singleton mid z ih =>
    rw [← List.cons_append, ← List.append_assoc, lastSend_snoc, between z (by simp), Option.none_or]
    exact ih fun z hz => between z (List.mem_append_left _ hz)

/-- The errand with number `n` asked at `t` how long to wait on `route`, and need not wait. -/
def Asked (h : List Entry) (n : ℕ) (route : String) (t : Timestamp) : Prop :=
  ∃ z ∈ h, z.errand = n ∧ ∃ lag w, z.deed = ⟨.pacingWait route lag t, w⟩ ∧ ¬ Span.zero < w

theorem Asked.mono {h h' : List Entry} {n : ℕ} {route : String} {t : Timestamp}
    (asked : Asked h n route t) (sub : h ⊆ h') : Asked h' n route t := by
  obtain ⟨z, hz, rest⟩ := asked
  exact ⟨z, sub hz, rest⟩

end Fleet

open Fleet

/-- What the way of an errand to its send says of what has been done, and of the clock. -/
def Approach.Holds (h : List Entry) (n : ℕ) (route : String) (now : Timestamp) : Approach → Prop
  | .fresh | .past => True
  | .timed t => t ≤ now
  | .through t => t ≤ now ∧ Asked h n route t
  | .ready t s => t ≤ s ∧ s ≤ now ∧ Asked h n route t

theorem Approach.Holds.mono {h h' : List Entry} {n : ℕ} {route : String} {now now' : Timestamp}
    {g : Approach} (holds : g.Holds h n route now) (sub : h ⊆ h') (le : now ≤ now') :
    g.Holds h' n route now' := by
  cases g with
  | fresh | past => trivial
  | timed t => exact Timestamp.le_trans holds le
  | through t => exact ⟨Timestamp.le_trans holds.1 le, holds.2.mono sub⟩
  | ready t s => exact ⟨holds.1, Timestamp.le_trans holds.2.1 le, holds.2.2.mono sub⟩

namespace Fleet

/-- Where an errand is on its way to its send. -/
def approached (x : Errand) : Approach := (approach x.worker x.job).follow .fresh x.past

variable {e : Engine} {h : List Entry} {f : Fleet}

theorem news_of_answered {e e' : Engine} {x x' : Errand} {a : Action} {r : a.Reply} (n : ℕ)
    (ans : x.Answered e e' x' a r) : news n e x x' = [⟨n, ⟨a, r⟩, e⟩] := by
  simp [news, ans.past]

theorem news_of_same {x x' : Errand} (n : ℕ) (e : Engine) (same : x'.past = x.past) :
    news n e x x' = [] := by
  simp [news, same]

theorem approached_answered {x x' : Errand} {e e' : Engine} {a : Action} {r : a.Reply}
    (ans : x.Answered e e' x' a r) (hw : x'.worker = x.worker) (hj : x'.job = x.job) :
    approached x' = (approach x.worker x.job).after (approached x) ⟨a, r⟩ := by
  rw [approached, hw, hj, ans.past, Rule.follow_snoc]
  rfl

/-- What the way of an errand to its send says, it says after a turn too. -/
theorem holds_answered {n : ℕ} {x x' : Errand} {e' : Engine} {a : Action} {r : a.Reply}
    (holds : (approached x).Holds h n x.job.routeKey f.engine.now)
    (ans : x.Answered f.engine e' x' a r)
    (keeps : x.stage.plan.Keeps (approach x.worker x.job) (approached x)) :
    ((approach x.worker x.job).after (approached x) ⟨a, r⟩).Holds
      (h ++ [⟨n, ⟨a, r⟩, f.engine⟩]) n x.job.routeKey f.engine.now := by
  have allowed := ans.allowed keeps
  generalize approached x = g at holds allowed
  have kept : g.Holds (h ++ [⟨n, ⟨a, r⟩, f.engine⟩]) n x.job.routeKey f.engine.now :=
    holds.mono (List.subset_append_left _ _) (Timestamp.le_refl _)
  cases a with
  | readClock =>
    rcases ans.source with ⟨foreign, -⟩ | ⟨-, done⟩
    · cases foreign
    · cases done
      cases g with
      | fresh => exact Timestamp.le_refl _
      | timed t => exact kept
      | through t => exact ⟨kept.1, Timestamp.le_refl _, kept.2⟩
      | ready t s => exact ⟨Timestamp.le_trans kept.1 kept.2.1, Timestamp.le_refl _, kept.2.2⟩
      | past => trivial
  | pacingWait route lag t =>
    obtain ⟨rfl, rfl⟩ := allowed
    change Approach.Holds _ _ _ _ (if Span.zero < r then .past else .through t)
    split_ifs with waits
    · trivial
    · exact ⟨kept, _, List.mem_append_right _ (List.mem_singleton_self _), rfl, lag, r, rfl, waits⟩
  | pacingSend route t => trivial
  | _ => exact kept

theorem now_of_move {e e' : Engine} {x x' : Errand} (move : x.Move e e' x') : e'.now = e.now := by
  rcases move.cases with ⟨a, r, ans⟩ | ⟨rfl, -⟩
  · rcases ans.source with ⟨-, rfl⟩ | ⟨own, done⟩
    · rfl
    · exact (Engine.perform_lastSent own done).2.1
  · rfl

namespace Journal

theorem steps (journal : Journal e h f) : Steps (idle e) f := by
  induction journal with
  | start => exact .refl
  | begin cfg worker job _ ih => exact ih.tail (.begin cfg worker job)
  | move _ hx move ih => exact ih.tail (.move hx move)
  | outside _ out _ _ _ ih => exact ih.tail (.outside out)

/-- Every entry was made by the errand that it names, in the course of the run. -/
theorem upTo {pre post : List Entry} {z : Entry} (journal : Journal e (pre ++ z :: post) f) :
    ∃ (g : Fleet) (e' : Engine) (x x' : Errand), Journal e pre g ∧ g.engine = z.engine ∧
      g.errands[z.errand]? = some x ∧ x.Answered g.engine e' x' z.deed.action z.deed.reply := by
  generalize hh : pre ++ z :: post = h at journal
  induction journal generalizing post with
  | start => simp at hh
  | begin _ _ _ _ ih | outside _ _ _ _ _ ih => exact ih hh
  | @move h f n x x' e' journal hx move ih =>
    rcases move.cases with ⟨a, r, ans⟩ | ⟨-, same, -⟩
    · rw [news_of_answered n ans] at hh
      rcases List.eq_nil_or_concat post with rfl | ⟨post, last, rfl⟩
      · obtain ⟨rfl, hz⟩ := List.append_inj' hh rfl
        obtain rfl := List.singleton_inj.1 hz
        exact ⟨f, e', x, x', journal, rfl, hx, ans⟩
      · rw [List.concat_eq_append, ← List.cons_append, ← List.append_assoc] at hh
        exact ih (List.append_inj' hh rfl).1
    · rw [news_of_same n _ same, List.append_nil] at hh
      exact ih hh

theorem config (journal : Journal e h f) : f.engine.config = e.config := by
  induction journal with
  | start => rfl
  | begin _ _ _ _ ih => exact ih
  | move _ _ move ih =>
    rcases move.cases with ⟨a, r, ans⟩ | ⟨rfl, -⟩
    · rcases ans.source with ⟨-, rfl⟩ | ⟨own, done⟩
      · exact ih
      · exact (Engine.perform_lastSent own done).1.trans ih
    · exact ih
  | outside _ _ same _ _ ih => exact same.trans ih

theorem lastSent (journal : Journal e h f) (route : String) :
    Pacing.lastSent f.engine.pacing route = lastSend route (Pacing.lastSent e.pacing route) h := by
  induction journal with
  | start => rfl
  | begin _ _ _ _ ih => exact ih
  | @move h f n x x' e' _ _ move ih =>
    rcases move.cases with ⟨a, r, ans⟩ | ⟨rfl, same, -⟩
    · rw [news_of_answered n ans, lastSend_snoc, ← ih]
      rcases ans.source with ⟨foreign, rfl⟩ | ⟨own, done⟩
      · have : Deed.sentOn? route ⟨a, r⟩ = none := by
          cases a <;> first | rfl | cases foreign
        rw [this, Option.none_or]
      · exact (Engine.perform_lastSent own done).2.2 route
    · rw [news_of_same n _ same, List.append_nil]
      exact ih
  | outside _ _ _ _ same ih => exact (same route).trans ih

theorem keeps (journal : Journal e h f) {x : Errand} (hx : x ∈ f.errands) :
    x.stage.plan.Keeps (approach x.worker x.job) (approached x) := by
  refine Steps.errand_induction (P := fun worker job past p =>
    p.Keeps (approach worker job) ((approach worker job).follow .fresh past))
    Worker.approach_process (fun worker job past a next r keeps => ?_) journal.steps hx
  rw [Rule.follow_snoc]
  exact keeps.2 r

/-- An errand that is about to send asked before, with no later a time than it sends. -/
theorem holds (journal : Journal e h f) {n : ℕ} {x : Errand} (hx : f.errands[n]? = some x) :
    (approached x).Holds h n x.job.routeKey f.engine.now := by
  induction journal generalizing n x with
  | start => simp [idle] at hx
  | begin cfg worker job _ ih =>
    rw [List.getElem?_append] at hx
    split_ifs at hx with hn
    · exact ih hx
    · obtain rfl := List.mem_singleton.1 (List.mem_of_getElem? hx)
      trivial
  | @move h f m y y' e' journal hy move ih =>
    have now := now_of_move move
    by_cases hn : n = m
    · subst hn
      rw [List.getElem?_set_self (List.getElem?_eq_some_iff.1 hy).1] at hx
      obtain rfl := Option.some.inj hx
      rw [move.job, now]
      rcases move.cases with ⟨a, r, ans⟩ | ⟨-, same, -⟩
      · rw [news_of_answered n ans, approached_answered ans move.worker move.job]
        exact holds_answered (ih hy) ans (journal.keeps (List.mem_of_getElem? hy))
      · rw [news_of_same n _ same, List.append_nil, approached, move.worker, move.job, same]
        exact ih hy
    · rw [List.getElem?_set_ne (Ne.symm hn)] at hx
      rw [now]
      exact (ih hx).mono (List.subset_append_left _ _) (Timestamp.le_refl _)
  | outside _ _ _ later _ ih => exact (ih hx).mono (List.Subset.refl _) later

/-- An errand that sends has asked how long to wait before, and reads no earlier time off the clock
for its send. -/
theorem asked_of_sent {pre post : List Entry} {y : Entry} {route : String} {s : Timestamp}
    (journal : Journal e (pre ++ y :: post) f) (sent : y.deed.sentOn? route = some s) :
    ∃ t ≤ s, Asked pre y.errand route t := by
  obtain ⟨g, e', x, x', before, -, hx, ans⟩ := journal.upTo
  obtain ⟨n, ⟨a, r⟩, engine⟩ := y
  have sending : a = .pacingSend route s := by
    cases a with
    | pacingSend =>
      simp only [Deed.sentOn?, Option.ite_none_right_eq_some, Option.some.injEq] at sent
      rw [sent.1, sent.2]
    | _ => cases sent
  subst sending
  obtain ⟨hr, t, ready⟩ := ans.allowed (before.keeps (List.mem_of_getElem? hx))
  have holds := before.holds hx
  rw [ready] at holds
  obtain ⟨le, -, asked⟩ := holds
  exact ⟨t, le, hr ▸ asked⟩

/-- An errand that asks how long to wait is told by the last send before. -/
theorem answer_of_asked {pre post : List Entry} {z : Entry} {route : String} {lag w : Span}
    {t : Timestamp} (journal : Journal e (pre ++ z :: post) f)
    (asks : z.deed = ⟨.pacingWait route lag t, w⟩) :
    w = Pacing.wait e.config.pacing route lag t z.engine.pacing ∧
      Pacing.lastSent z.engine.pacing route =
        lastSend route (Pacing.lastSent e.pacing route) pre := by
  obtain ⟨g, e', x, x', before, hg, -, ans⟩ := journal.upTo
  obtain ⟨n, deed, engine⟩ := z
  cases asks
  rw [← hg]
  refine ⟨?_, before.lastSent route⟩
  rcases ans.source with ⟨foreign, -⟩ | ⟨-, done⟩
  · cases foreign
  · cases done
    rw [← before.config]
    rfl

/-- Two sends in a row on a route are apart by its delay, if only the worker of the second one
asked how long to wait after the first one was recorded. -/
theorem sends_apart {pre mid post : List Entry} {x y : Entry} {route : String}
    {s₁ s₂ : Timestamp} {d : Float} (journal : Journal e (pre ++ x :: mid ++ y :: post) f)
    (first : x.deed.sentOn? route = some s₁) (second : y.deed.sentOn? route = some s₂)
    (between : ∀ z ∈ mid, z.deed.sentOn? route = none)
    (delayed : ∀ z ∈ mid, Pacing.delay z.engine.pacing route = d) (pos : 0 < d)
    (most : d ≤ e.config.pacing.maxDelaySecs) (penalty : 0 ≤ e.config.pacing.lagPenaltyPerSec)
    (late : ∀ z ∈ pre, z.errand = y.errand → ∀ lag t, z.deed.action ≠ .pacingWait route lag t) :
    s₁.add (Span.ofQuantity d) ≤ s₂ := by
  obtain ⟨t, le, z, hz, hn, lag, w, asks, free⟩ := journal.asked_of_sent second
  refine Timestamp.le_trans ?_ le
  rcases List.mem_append.1 hz with early | hz
  · exact absurd (congrArg Deed.action asks) (late z early hn lag t)
  · rcases List.mem_cons.1 hz with rfl | hz
    · rw [asks] at first
      cases first
    · have slow := delayed z hz
      obtain ⟨mid₁, mid₂, rfl⟩ := List.append_of_mem hz
      have before : Journal e (pre ++ x :: mid₁ ++ z :: (mid₂ ++ y :: post)) f := by
        simpa using journal
      obtain ⟨rfl, last⟩ := before.answer_of_asked asks
      rw [lastSend_of_none _ first fun z hz => between z (List.mem_append_left _ hz)] at last
      exact Pacing.add_le_of_wait last slow pos most penalty free

end Journal

end Fleet

/-- The answer of the adapter, if it is being called. -/
def Errand.arrive? (r : AdapterReply) (e : Engine) (x : Errand) : Option (Engine × Errand) :=
  match x.stage with
  | .calling i next => some (e, x.onward (.callAdapter i) r next)
  | .acting _ => none

theorem Errand.arrive?_move {r : AdapterReply} {e e' : Engine} {x x' : Errand}
    (h : x.arrive? r e = some (e', x')) : x.Move e e' x' := by
  unfold arrive? at h
  split at h
  · rename_i hs
    cases h
    exact .arrive r hs
  · cases h

namespace Fleet

/-- A fleet, and what its errands have done so far. -/
structure Logbook where
  entries : List Entry
  fleet : Fleet

namespace Logbook

/-- An errand goes on, if it can. -/
def turn (go : Engine → Errand → Option (Engine × Errand)) (n : ℕ) (l : Logbook) : Logbook :=
  match l.fleet.errands[n]? with
  | none => l
  | some x =>
    match go l.fleet.engine x with
    | none => l
    | some (e', x') =>
      ⟨l.entries ++ news n l.fleet.engine x x', ⟨e', l.fleet.errands.set n x'⟩⟩

/-- A fleet follows the orders that are about errands, and notes what they do. -/
def follow (l : Logbook) : Order → Logbook
  | .begin worker id => ⟨l.entries, l.fleet.follow (.begin worker id)⟩
  | .sleep ms => ⟨l.entries, l.fleet.follow (.sleep ms)⟩
  | .turns n count => (turn (fun e x => x.turn? e) n)^[count] l
  | .arrive n r => turn (fun e x => x.arrive? r e) n l
  | _ => l

/-- What has been noted is what has been done since `e`. -/
def Tells (e : Engine) (l : Logbook) : Prop := Journal e l.entries l.fleet

variable {e : Engine} {l : Logbook}

theorem Tells.turn {go : Engine → Errand → Option (Engine × Errand)}
    (ok : ∀ e x e' x', go e x = some (e', x') → x.Move e e' x') (n : ℕ) (tells : l.Tells e) :
    (l.turn go n).Tells e := by
  unfold Logbook.turn
  split
  · exact tells
  · rename_i hx
    split
    · exact tells
    · rename_i moved
      exact .move tells hx (ok _ _ _ _ moved)

theorem Tells.follow (tells : l.Tells e) (o : Order) : (l.follow o).Tells e := by
  cases o with
  | begin worker id =>
    change Journal e l.entries (l.fleet.follow (.begin worker id))
    unfold Fleet.follow
    dsimp only
    split
    · exact .begin _ _ _ tells
    · exact tells
  | sleep ms =>
    refine .outside tells (.elsewhere ⟨fun _ => rfl, fun _ => rfl, fun _ => rfl⟩) rfl ?_
      fun _ => rfl
    have later : (l.fleet.engine.sleptMs : ℤ) ≤ (l.fleet.engine.sleptMs + ms : ℕ) := by omega
    exact Timestamp.add_le_add _ (Span.ofMillis_mono later)
  | turns n count =>
    induction count generalizing l with
    | zero => exact tells
    | succ count ih => exact ih (tells.turn (fun _ _ _ _ => Errand.turn?_move) n)
  | arrive n r => exact tells.turn (fun _ _ _ _ => Errand.arrive?_move) n
  | _ => exact tells

theorem Tells.foldl (tells : l.Tells e) (os : List Order) :
    (os.foldl Logbook.follow l).Tells e := by
  induction os generalizing l with
  | nil => exact tells
  | cons o os ih => exact ih (tells.follow o)

end Logbook

/-- A list around two of its entries. -/
theorem exists_parts {α : Type} {l : List α} {i k : ℕ} (h : i + 1 + k < l.length) :
    ∃ x y, l[i]? = some x ∧ l[i + 1 + k]? = some y ∧
      l = l.take i ++ x :: (l.drop (i + 1)).take k ++ y :: l.drop (i + 1 + k + 1) := by
  have hi : i < l.length := by omega
  have onward : l.drop (i + 1 + k) = (l.drop (i + 1)).drop k := by rw [List.drop_drop]
  refine ⟨l[i], l[i + 1 + k], List.getElem?_eq_getElem hi, List.getElem?_eq_getElem h, ?_⟩
  rw [← List.drop_eq_getElem_cons h, onward, List.append_assoc, List.cons_append,
    List.take_append_drop, ← List.drop_eq_getElem_cons hi, List.take_append_drop]

/-- Three jobs of one route, each leased to a worker of its own. -/
def threeLeased : Engine :=
  ([.enqueue (Queue.sampleJob 1 "i-1"), .loop (.leaseJobs "w-1" 1 (.ofSeconds 60)),
    .enqueue (Queue.sampleJob 2 "i-2"), .loop (.leaseJobs "w-2" 1 (.ofSeconds 60)),
    .enqueue (Queue.sampleJob 3 "i-3"), .loop (.leaseJobs "w-3" 1 (.ofSeconds 60))].foldl follow
      (idle (.create .usual .epoch .quiet))).engine

/-- The first of them meets pressure; two seconds later the other two are begun. -/
def slowed : Logbook :=
  [.begin "w-1" ⟨.ofNat 1⟩, .turns 0 20, .arrive 0 (.outcome (.environment "429")), .turns 0 20,
    .sleep 2000, .begin "w-2" ⟨.ofNat 2⟩, .begin "w-3" ⟨.ofNat 3⟩].foldl Logbook.follow
      ⟨[], idle threeLeased⟩

theorem tells_slowed : slowed.Tells threeLeased :=
  have begun : Logbook.Tells threeLeased ⟨[], idle threeLeased⟩ := .start
  begun.foldl _

/-- One worker sends, and two seconds later the other asks how long to wait, and sends. -/
def oneByOne : Logbook :=
  [.turns 1 20, .sleep 2000, .turns 2 20].foldl Logbook.follow slowed

theorem sends_apart_oneByOne : ∃ x y, oneByOne.entries[26]? = some x ∧
    oneByOne.entries[26 + 1 + 8]? = some y ∧
    x.deed.sentOn? "x:account" = some (.clamp 2000000000) ∧
    y.deed.sentOn? "x:account" = some (.clamp 4000000000) ∧
    (Timestamp.clamp 2000000000).add (Span.ofQuantity (1 : Float)) ≤ .clamp 4000000000 := by
  have tells : oneByOne.Tells threeLeased := tells_slowed.foldl _
  obtain ⟨long, first, second, another, early, between, delayed⟩ :
      26 + 1 + 8 < oneByOne.entries.length ∧
      (oneByOne.entries[26]?.bind fun z => z.deed.sentOn? "x:account") =
        some (.clamp 2000000000) ∧
      (oneByOne.entries[26 + 1 + 8]?.bind fun z => z.deed.sentOn? "x:account") =
        some (.clamp 4000000000) ∧
      oneByOne.entries[26 + 1 + 8]?.map Entry.errand = some 2 ∧
      (∀ z ∈ oneByOne.entries.take 26, z.errand ≠ 2) ∧
      (∀ z ∈ (oneByOne.entries.drop (26 + 1)).take 8, z.deed.sentOn? "x:account" = none) ∧
      ∀ z ∈ (oneByOne.entries.drop (26 + 1)).take 8,
        Pacing.delay z.engine.pacing "x:account" = (1 : Float) := by
    decide +kernel
  obtain ⟨x, y, hx, hy, parts⟩ := exists_parts long
  rw [hx] at first
  rw [hy] at second another
  rw [Logbook.Tells, parts] at tells
  refine ⟨x, y, hx, hy, first, second, ?_⟩
  refine tells.sends_apart first second between delayed (by decide +kernel) (by decide +kernel)
    (by decide +kernel) fun z hz hn => ?_
  exact absurd (hn.trans (Option.some.inj another)) (early z hz)

/-- One asks how long to wait, the other asks and sends, and then the one sends. -/
def atOnce : Logbook :=
  [.turns 1 2, .turns 2 20, .turns 1 20].foldl Logbook.follow slowed

/-- Two sends in a row on a route with a delay, and no time between them. -/
theorem exists_sends_together : ∃ e h f pre x mid y post s₁ s₂, Journal e h f ∧
    h = pre ++ x :: mid ++ y :: post ∧ x.deed.sentOn? "x:account" = some s₁ ∧
    y.deed.sentOn? "x:account" = some s₂ ∧ (∀ z ∈ mid, z.deed.sentOn? "x:account" = none) ∧
    (∀ z ∈ x :: mid ++ [y], Pacing.delay z.engine.pacing "x:account" = (1 : Float)) ∧
    Pacing.delay f.engine.pacing "x:account" = (1 : Float) ∧
    (1 : Float) ≤ e.config.pacing.maxDelaySecs ∧ 0 ≤ e.config.pacing.lagPenaltyPerSec ∧
    ¬ s₁.add (Span.ofQuantity (1 : Float)) ≤ s₂ := by
  have tells : atOnce.Tells threeLeased := tells_slowed.foldl _
  obtain ⟨long, first, second, between, delayed, still⟩ :
      28 + 1 + 6 < atOnce.entries.length ∧
      (atOnce.entries[28]?.map fun z =>
        (z.deed.sentOn? "x:account", Pacing.delay z.engine.pacing "x:account")) =
        some (some (.clamp 2000000000), (1 : Float)) ∧
      (atOnce.entries[28 + 1 + 6]?.map fun z =>
        (z.deed.sentOn? "x:account", Pacing.delay z.engine.pacing "x:account")) =
        some (some (.clamp 2000000000), (1 : Float)) ∧
      (∀ z ∈ (atOnce.entries.drop (28 + 1)).take 6, z.deed.sentOn? "x:account" = none) ∧
      (∀ z ∈ (atOnce.entries.drop (28 + 1)).take 6,
        Pacing.delay z.engine.pacing "x:account" = (1 : Float)) ∧
      Pacing.delay atOnce.fleet.engine.pacing "x:account" = (1 : Float) := by
    decide +kernel
  obtain ⟨x, y, hx, hy, parts⟩ := exists_parts long
  rw [hx] at first
  rw [hy] at second
  obtain ⟨sent₁, delayed₁⟩ := Prod.mk.inj (Option.some.inj first)
  obtain ⟨sent₂, delayed₂⟩ := Prod.mk.inj (Option.some.inj second)
  refine ⟨_, _, _, _, x, _, y, _, _, _, tells, parts, sent₁, sent₂, between, ?_, still,
    by decide +kernel, by decide +kernel, by decide +kernel⟩
  intro z hz
  rcases List.mem_append.1 hz with hz | hz
  · rcases List.mem_cons.1 hz with rfl | hz
    · exact delayed₁
    · exact delayed z hz
  · rw [List.mem_singleton.1 hz]
    exact delayed₂

end Fleet

end Courier
