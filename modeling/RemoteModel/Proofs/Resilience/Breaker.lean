import Mathlib.Algebra.Ring.Rat
import Mathlib.Data.Rat.Cast.Defs
import RemoteModel.Resilience.Breaker

/-!
What a breaker does over a run of calls. Its counter is the number of failures that count at the end of
the calls that ran, and it is open when these reach the threshold; a call runs when the circuit is
closed or the timeout has passed since the last call that ran.
-/

namespace RemoteModel

namespace Breaker

structure Ending (α : Type) where
  result : Except Failure α
  time : Int

def Ending.failed {α : Type} (counts : Failure → Bool) (e : Ending α) : Bool :=
  match e.result with
  | .ok _ => false
  | .error f => counts f

/-- The calls in a row that failed last. -/
def streak {α : Type} (counts : Failure → Bool) (endings : List (Ending α)) : Nat :=
  (endings.takeWhile fun e => e.failed counts).length

def lastTime {α : Type} : List (Ending α) → Int
  | [] => 0
  | e :: _ => e.time

variable {σ α : Type} [HasJournal σ]

/-- A body that notes down its ending in front of those before. -/
def watched (body : σ → Except Failure α × σ) (s : List (Ending α) × σ) :
    Except Failure α × List (Ending α) × σ :=
  match body s.2 with
  | (result, s') => (result, ⟨result, (HasJournal.journal s').now⟩ :: s.1, s')

inductive Event (σ α : Type) where
  | call (body : σ → Except Failure α × σ)
  | between (change : σ → σ)

/-- How calls are guarded: which errors count, what is logged of them, and what stands for an open
circuit. -/
structure Guard where
  kind : ErrorClass
  service : Text
  counts : Failure → Bool
  notes : Failure → List LogRecord

namespace Guard

variable (g : Guard)

def run (b : Breaker) (body : σ → Except Failure α × σ) (s : σ) :
    Except Failure α × Breaker × σ :=
  b.run g.kind g.service g.counts g.notes body s

def step (w : Breaker × List (Ending α) × σ) : Event σ α → Breaker × List (Ending α) × σ
  | .call body => (g.run w.1 (watched body) w.2).2
  | .between change => (w.1, w.2.1, change w.2.2)

/-- The breaker, the endings of the calls that ran and the state after a run of events. -/
def history (b : Breaker) (s : σ) (events : List (Event σ α)) : Breaker × List (Ending α) × σ :=
  events.foldl g.step (b, [], s)

def move (w : Breaker × σ) : Event σ α → Breaker × σ
  | .call body => (g.run w.1 body w.2).2
  | .between change => (w.1, change w.2)

/-- The breaker and the state after a run of events in which nothing is noted down. -/
def outcome (b : Breaker) (s : σ) (events : List (Event σ α)) : Breaker × σ :=
  events.foldl g.move (b, s)

end Guard

theorem now_log (records : List LogRecord) (s : σ) :
    (HasJournal.journal (HasJournal.log records s)).now = (HasJournal.journal s).now := by
  rw [HasJournal.log, HasJournal.journal_setJournal]
  rfl

def after (g : Guard) (b : Breaker) (e : Ending α) : Breaker :=
  match e.result with
  | .ok _ => b.pass.1
  | .error f => if g.counts f then (b.trip e.time f).1 else b.pass.1

def seen (g : Guard) (b : Breaker) (e : Ending α) : Except Failure α :=
  if e.failed g.counts = true ∧ (after g b e).circuit ≠ .closed then
    .error (.circuitOpen g.kind g.service)
  else e.result

theorem after_of_passed {g : Guard} {e : Ending α} (h : e.failed g.counts = false) (b : Breaker) :
    after g b e = b.pass.1 ∧ seen g b e = e.result := by
  refine ⟨?_, by simp [seen, h]⟩
  obtain ⟨result, time⟩ := e
  cases result with
  | ok => rfl
  | error f =>
      have hcounts : g.counts f = false := h
      simp [after, hcounts]

theorem result_of_failed {counts : Failure → Bool} {e : Ending α} (h : e.failed counts = true) :
    ∃ f, e.result = .error f ∧ counts f = true := by
  obtain ⟨result, time⟩ := e
  cases result with
  | ok => cases h
  | error f => exact ⟨f, rfl, h⟩

theorem after_of_failed {g : Guard} {e : Ending α} {f : Failure} (hresult : e.result = .error f)
    (hcounts : g.counts f = true) (b : Breaker) : after g b e = (b.trip e.time f).1 := by
  simp [after, hresult, hcounts]

inductive Ran (g : Guard) (b : Breaker) (body : σ → Except Failure α × σ)
    (s : List (Ending α) × σ) : Except Failure α × Breaker × List (Ending α) × σ → Prop
  | refused : b.enter (HasJournal.journal s.2).now = none →
      Ran g b body s (.error (.circuitOpen g.kind g.service), b, s)
  | ran {b' : Breaker} {records : List LogRecord} {e : Ending α} {s' : σ} :
      b.enter (HasJournal.journal s.2).now = some (b', records) →
      e.result = (body (HasJournal.log records s.2)).1 →
      e.time = (HasJournal.journal (body (HasJournal.log records s.2)).2).now →
      Ran g b body s (seen g b' e, after g b' e, e :: s.1, s')

theorem enter_cases {b b' : Breaker} {now : Int} {records : List LogRecord}
    (h : b.enter now = some (b', records)) :
    b'.threshold = b.threshold ∧ b'.timeout = b.timeout ∧ b'.failures = b.failures ∧
      (b.circuit = .closed ∧ b'.circuit = .closed ∨ b.circuit ≠ .closed ∧ b'.circuit = .halfOpen) := by
  unfold enter at h
  split at h
  next since hopened =>
    split at h
    next => simp at h
    next =>
      cases h
      exact ⟨rfl, rfl, rfl, .inr ⟨by simp [hopened], rfl⟩⟩
  next hopened =>
    cases h
    refine ⟨rfl, rfl, rfl, ?_⟩
    cases hcircuit : b.circuit with
    | closed => exact .inl ⟨rfl, rfl⟩
    | opened since => exact absurd hcircuit (hopened since)
    | halfOpen => exact .inr ⟨by simp, rfl⟩

theorem pass_of_enter {b b' : Breaker} {now : Int} {records : List LogRecord}
    (h : b.enter now = some (b', records)) :
    b'.pass.1 = { b with circuit := .closed, failures := 0 } := by
  obtain ⟨name, threshold, timeout, circuit, failures⟩ := b
  unfold enter at h
  dsimp only at h
  split at h
  next =>
    split at h
    next => cases h
    next =>
      cases h
      rfl
  next hopened =>
    cases h
    cases circuit with
    | closed => rfl
    | opened since => exact absurd rfl (hopened since)
    | halfOpen => rfl

theorem pass_keeps (b : Breaker) :
    b.pass.1.threshold = b.threshold ∧ b.pass.1.timeout = b.timeout := by
  unfold pass
  dsimp only
  split <;> exact ⟨rfl, rfl⟩

theorem name_of_enter {b b' : Breaker} {now : Int} {records : List LogRecord}
    (h : b.enter now = some (b', records)) : b'.name = b.name := by
  unfold enter at h
  split at h
  next =>
    split at h
    next => cases h
    next =>
      cases h
      rfl
  next =>
    cases h
    rfl

theorem name_pass (b : Breaker) : b.pass.1.name = b.name := by
  unfold pass
  dsimp only
  split <;> rfl

theorem name_trip (b : Breaker) (now : Int) (f : Failure) : (b.trip now f).1.name = b.name := by
  unfold trip
  dsimp only
  split <;> rfl

theorem trip_eq (b : Breaker) (now : Int) (f : Failure) :
    (b.trip now f).1.failures = b.failures + 1 ∧ (b.trip now f).1.threshold = b.threshold ∧
      (b.trip now f).1.timeout = b.timeout ∧
      (b.trip now f).2.2 = decide (b.circuit = .halfOpen ∨ b.threshold ≤ (b.failures : Int) + 1) ∧
      (b.trip now f).1.circuit =
        if b.circuit = .halfOpen ∨ b.threshold ≤ (b.failures : Int) + 1 then .opened now
        else b.circuit := by
  unfold trip
  dsimp only
  split
  next hopens =>
    have hopens' : b.circuit = .halfOpen ∨ b.threshold ≤ (b.failures : Int) + 1 := hopens
    simp [hopens', moved]
  next hopens =>
    have hopens' : ¬(b.circuit = .halfOpen ∨ b.threshold ≤ (b.failures : Int) + 1) := hopens
    simp [hopens']

/-- A breaker keeps its name and its settings. -/
theorem run_keeps (b : Breaker) (kind : ErrorClass) (service : Text) (counts : Failure → Bool)
    (notes : Failure → List LogRecord) (body : σ → Except Failure α × σ) (s : σ) :
    (b.run kind service counts notes body s).2.1.name = b.name ∧
      (b.run kind service counts notes body s).2.1.threshold = b.threshold ∧
      (b.run kind service counts notes body s).2.1.timeout = b.timeout := by
  unfold run
  split
  next => exact ⟨rfl, rfl, rfl⟩
  next b' records henter =>
    obtain ⟨hthreshold, htimeout, _⟩ := enter_cases henter
    have hname := name_of_enter henter
    have hpass := pass_keeps b'
    split
    next => exact ⟨b'.name_pass.trans hname, hpass.1.trans hthreshold, hpass.2.trans htimeout⟩
    next f s' _ =>
      dsimp only
      split
      next =>
        obtain ⟨_, htripped, htripped', _⟩ :=
          trip_eq b' (HasJournal.journal (HasJournal.log (notes f) s')).now f
        exact ⟨(b'.name_trip _ f).trans hname, htripped.trans hthreshold, htripped'.trans htimeout⟩
      next => exact ⟨b'.name_pass.trans hname, hpass.1.trans hthreshold, hpass.2.trans htimeout⟩

theorem trip_of_enter {b b' : Breaker} {now : Int} {records : List LogRecord}
    (h : b.enter now = some (b', records)) (time : Int) (f : Failure) :
    (b'.trip time f).1.failures = b.failures + 1 ∧
      (b.circuit ≠ .closed → (b'.trip time f).1.circuit ≠ .closed) := by
  obtain ⟨_, _, hfailures, hcircuit⟩ := enter_cases h
  obtain ⟨hmore, _, _, _, hnext⟩ := trip_eq b' time f
  refine ⟨by rw [hmore, hfailures], fun hopened => ?_⟩
  have hhalf : b'.circuit = .halfOpen := by
    rcases hcircuit with ⟨hclosed, _⟩ | ⟨_, hhalf⟩
    · exact absurd hclosed hopened
    · exact hhalf
  rw [hnext, if_pos (.inl hhalf)]
  simp

inductive Logged (s : σ) : σ → Prop
  | refl : Logged s s
  | log {s' : σ} (records : List LogRecord) : Logged s s' → Logged s (HasJournal.log records s')

theorem Logged.fst {β : Type} {s s' : β × σ} (h : Logged s s') : s'.1 = s.1 := by
  induction h with
  | refl => rfl
  | log _ _ ih => exact ih

theorem seen_of_failed {g : Guard} {b : Breaker} {f : Failure} {time : Int}
    (hcounts : g.counts f = true) (hcircuit : b.circuit = .closed ∨ b.circuit = .halfOpen) :
    seen g b (⟨.error f, time⟩ : Ending α) =
      .error (if (b.trip time f).2.2 then .circuitOpen g.kind g.service else f) := by
  obtain ⟨_, _, _, hopens, hnext⟩ := trip_eq b time f
  simp only [seen, after, Ending.failed, hcounts, if_true, true_and, hopens, hnext]
  by_cases h : b.circuit = .halfOpen ∨ b.threshold ≤ (b.failures : Int) + 1
  · simp [h]
  · have hclosed : b.circuit = .closed := hcircuit.resolve_right fun hhalf => h (.inl hhalf)
    have hfew : ¬b.threshold ≤ (b.failures : Int) + 1 := fun hmany => h (.inr hmany)
    simp [hclosed, hfew]

theorem run_of_enter (g : Guard) {b b' : Breaker} (body : σ → Except Failure α × σ) (s : σ)
    {s' : σ} {records : List LogRecord} {result : Except Failure α}
    (henter : b.enter (HasJournal.journal s).now = some (b', records))
    (hbody : body (HasJournal.log records s) = (result, s')) :
    ∃ s'', Logged s' s'' ∧ g.run b body s =
      (seen g b' ⟨result, (HasJournal.journal s').now⟩,
        after g b' ⟨result, (HasJournal.journal s').now⟩, s'') := by
  obtain ⟨_, _, _, hcircuit⟩ := enter_cases henter
  unfold Guard.run Breaker.run
  rw [henter]
  dsimp only
  rw [hbody]
  cases result with
  | ok v => exact ⟨_, .log _ .refl, rfl⟩
  | error f =>
      dsimp only
      cases hcounts : g.counts f with
      | true =>
          refine ⟨_, .log (b'.trip (HasJournal.journal s').now f).2.1 (.log (g.notes f) .refl), ?_⟩
          rw [if_pos rfl, now_log, seen_of_failed hcounts (hcircuit.imp And.right And.right)]
          simp only [after, hcounts, if_true]
      | false =>
          refine ⟨_, .log b'.pass.2 (.log (g.notes f) .refl), ?_⟩
          simp [seen, after, Ending.failed, hcounts]

theorem run_refused (g : Guard) {b : Breaker} (body : σ → Except Failure α × σ) {s : σ}
    (henter : b.enter (HasJournal.journal s).now = none) :
    g.run b body s = (.error (.circuitOpen g.kind g.service), b, s) := by
  unfold Guard.run Breaker.run
  rw [henter]

theorem run_ran (g : Guard) (b : Breaker) (body : σ → Except Failure α × σ)
    (s : List (Ending α) × σ) : Ran g b body s (g.run b (watched body) s) := by
  cases henter : b.enter (HasJournal.journal s.2).now with
  | none =>
      rw [run_refused g (watched body) henter]
      exact .refused henter
  | some entered =>
      obtain ⟨b', records⟩ := entered
      obtain ⟨⟨endings, s'⟩, hlogged, hrun⟩ := run_of_enter g (watched body) s henter rfl
      obtain rfl : endings = _ := hlogged.fst
      rw [hrun]
      exact .ran henter rfl rfl

/-- A call that is seen to end in an error that counts has ended in that error, and has left the circuit
closed with one failure more. -/
theorem run_counted (g : Guard) {b b' : Breaker} {body : σ → Except Failure α × σ} {s s' : σ}
    {f : Failure} (hopen : g.counts (.circuitOpen g.kind g.service) = false)
    (hrun : g.run b body s = (.error f, b', s')) (hcounts : g.counts f = true) :
    b'.failures = b.failures + 1 ∧ (b.failures : Int) + 1 < b.threshold ∧
      ∃ records, (body (HasJournal.log records s)).1 = .error f ∧
        Logged (body (HasJournal.log records s)).2 s' := by
  cases henter : b.enter (HasJournal.journal s).now with
  | none =>
      rw [run_refused g body henter] at hrun
      cases hrun
      rw [hopen] at hcounts
      cases hcounts
  | some entered =>
      obtain ⟨entered, records⟩ := entered
      obtain ⟨s'', hlogged, hran⟩ := run_of_enter g body s henter (Prod.mk.eta).symm
      rw [hran] at hrun
      obtain ⟨hseen, hafter⟩ := Prod.mk.inj hrun
      obtain ⟨hbreaker, rfl⟩ := Prod.mk.inj hafter
      obtain ⟨hthreshold, -, hfailures, hcircuit⟩ := enter_cases henter
      unfold seen at hseen
      split at hseen
      next =>
        cases hseen
        rw [hopen] at hcounts
        cases hcounts
      next hclosed =>
        have hfailed : Ending.failed g.counts
            (⟨(body (HasJournal.log records s)).1, (HasJournal.journal
              (body (HasJournal.log records s)).2).now⟩ : Ending α) = true := by
          unfold Ending.failed
          rw [hseen]
          exact hcounts
        have hstays := not_not.mp (not_and.mp hclosed hfailed)
        obtain ⟨hmore, -, -, -, hnext⟩ := trip_eq entered (HasJournal.journal
          (body (HasJournal.log records s)).2).now f
        rw [after_of_failed hseen hcounts] at hbreaker hstays
        rw [hnext] at hstays
        refine ⟨by rw [← hbreaker, hmore, hfailures], ?_, records, hseen, hlogged⟩
        split at hstays
        next => cases hstays
        next hfew =>
          rw [hthreshold, hfailures] at hfew
          exact Int.not_le.mp fun hmany => hfew (.inr hmany)

theorem run_watched (g : Guard) (b : Breaker) (body : σ → Except Failure α × σ)
    (endings : List (Ending α)) (s : σ) :
    g.run b body s = ((g.run b (watched body) (endings, s)).1,
      (g.run b (watched body) (endings, s)).2.1, (g.run b (watched body) (endings, s)).2.2.2) := by
  unfold Guard.run Breaker.run
  rw [show (HasJournal.journal (endings, s)).now = (HasJournal.journal s).now from rfl]
  cases b.enter (HasJournal.journal s).now with
  | none => rfl
  | some entered =>
      obtain ⟨b', records⟩ := entered
      dsimp only
      rw [show watched body (HasJournal.log records (endings, s)) =
        ((body (HasJournal.log records s)).1, ⟨(body (HasJournal.log records s)).1,
          (HasJournal.journal (body (HasJournal.log records s)).2).now⟩ :: endings,
          (body (HasJournal.log records s)).2) from rfl]
      cases body (HasJournal.log records s) with
      | mk result s' =>
          cases result with
          | ok => rfl
          | error f => cases hcounts : g.counts f <;> simp only [hcounts] <;> rfl

structure Follows (counts : Failure → Bool) (b : Breaker) (endings : List (Ending α)) : Prop where
  failures : b.failures = streak counts endings
  circuit : b.circuit =
    if max 1 b.threshold ≤ (streak counts endings : Int) then .opened (lastTime endings) else .closed

theorem streak_cons_failed {counts : Failure → Bool} {e : Ending α} {endings : List (Ending α)}
    (h : e.failed counts = true) : streak counts (e :: endings) = streak counts endings + 1 := by
  simp [streak, h]

theorem streak_cons_passed {counts : Failure → Bool} {e : Ending α} {endings : List (Ending α)}
    (h : e.failed counts = false) : streak counts (e :: endings) = 0 := by
  simp [streak, h]

theorem seen_eq_streak (g : Guard) (b : Breaker) (e : Ending α) (endings : List (Ending α)) :
    seen g b e =
      if streak g.counts (e :: endings) ≠ 0 ∧ (after g b e).circuit ≠ .closed then
        .error (.circuitOpen g.kind g.service)
      else e.result := by
  unfold seen
  cases hfailed : e.failed g.counts with
  | true => simp [streak_cons_failed hfailed]
  | false => simp [streak_cons_passed hfailed]

theorem follows_create (counts : Failure → Bool) (name : Text) (threshold : Int) (timeout : Rat) :
    Follows counts (create name threshold timeout) ([] : List (Ending α)) := by
  refine ⟨rfl, ?_⟩
  rw [if_neg]
  · rfl
  · simp only [streak, List.takeWhile_nil, List.length_nil]
    omega

theorem follows_passed {g : Guard} {b b' : Breaker} {now : Int} {records : List LogRecord}
    (henter : b.enter now = some (b', records)) {e : Ending α} (hpassed : e.failed g.counts = false)
    (endings : List (Ending α)) : Follows g.counts (after g b' e) (e :: endings) := by
  rw [(after_of_passed hpassed b').1, pass_of_enter henter]
  refine ⟨by rw [streak_cons_passed hpassed], ?_⟩
  rw [streak_cons_passed hpassed, if_neg (by omega)]

theorem follows_failed {g : Guard} {b b' : Breaker} {now : Int} {records : List LogRecord}
    {endings : List (Ending α)} (h : Follows g.counts b endings)
    (henter : b.enter now = some (b', records)) {e : Ending α} (hfailed : e.failed g.counts = true) :
    Follows g.counts (after g b' e) (e :: endings) := by
  obtain ⟨f, hresult, hcounts⟩ := result_of_failed hfailed
  obtain ⟨hthreshold, _, hfailures, hcircuit⟩ := enter_cases henter
  obtain ⟨hmore, hsame, _, _, hnext⟩ := trip_eq b' e.time f
  have hcount := h.failures
  have hbefore := h.circuit
  rw [after_of_failed hresult hcounts b']
  refine ⟨by rw [hmore, hfailures, hcount, streak_cons_failed hfailed], ?_⟩
  rw [hnext, hsame, hthreshold, hfailures, hcount, streak_cons_failed hfailed]
  push_cast
  rcases hcircuit with ⟨_, hclosed⟩ | ⟨hopened, hhalf⟩
  · simp only [hclosed, reduceCtorEq, false_or]
    by_cases hmany : b.threshold ≤ (streak g.counts endings : Int) + 1
    · rw [if_pos hmany, if_pos (by omega)]
      rfl
    · rw [if_neg hmany, if_neg (by omega)]
  · -- a trial call: the failures before it had reached the threshold already
    have hmany : max 1 b.threshold ≤ (streak g.counts endings : Int) := by
      by_contra hfew
      rw [if_neg hfew] at hbefore
      exact hopened hbefore
    rw [if_pos (.inl hhalf), if_pos (by omega)]
    rfl

theorem follows_after {g : Guard} {b b' : Breaker} {now : Int} {records : List LogRecord}
    {endings : List (Ending α)} (h : Follows g.counts b endings)
    (henter : b.enter now = some (b', records)) (e : Ending α) :
    Follows g.counts (after g b' e) (e :: endings) := by
  cases hfailed : e.failed g.counts with
  | false => exact follows_passed henter hfailed endings
  | true => exact follows_failed h henter hfailed

theorem call_runs_iff {g : Guard} {b : Breaker} {endings : List (Ending α)}
    (h : Follows g.counts b endings) (now : Int) :
    (b.enter now).isSome = true ↔
      b.circuit = .closed ∨ lastTime endings + Journal.microseconds b.timeout ≤ now := by
  have hcircuit := h.circuit
  unfold enter
  by_cases hmany : max 1 b.threshold ≤ (streak g.counts endings : Int)
  · rw [if_pos hmany] at hcircuit
    rw [hcircuit]
    by_cases hearly : now < lastTime endings + Journal.microseconds b.timeout
    · simp [hearly, Int.not_le.mpr hearly]
    · simp [hearly, Int.not_lt.mp hearly]
  · rw [if_neg hmany] at hcircuit
    simp [hcircuit]

theorem call_of_follows {g : Guard} {b : Breaker} {endings : List (Ending α)}
    (h : Follows g.counts b endings) (body : σ → Except Failure α × σ) (s : σ) :
    ∃ result b' endings' s', g.run b (watched body) (endings, s) = (result, b', endings', s') ∧
      g.run b body s = (result, b', s') ∧
      if b.circuit = .closed ∨
          lastTime endings + Journal.microseconds b.timeout ≤ (HasJournal.journal s).now then
        ∃ records, endings' = ⟨(body (HasJournal.log records s)).1,
            (HasJournal.journal (body (HasJournal.log records s)).2).now⟩ :: endings ∧
          result = if streak g.counts endings' ≠ 0 ∧ b'.circuit ≠ .closed then
            .error (.circuitOpen g.kind g.service)
          else (body (HasJournal.log records s)).1
      else result = .error (.circuitOpen g.kind g.service) ∧ b' = b ∧ endings' = endings ∧
        s' = s := by
  have hran := run_ran g b body (endings, s)
  have hwatched := run_watched g b body endings s
  have hruns := call_runs_iff h (HasJournal.journal s).now
  generalize g.run b (watched body) (endings, s) = end' at hran hwatched ⊢
  refine ⟨end'.1, end'.2.1, end'.2.2.1, end'.2.2.2, rfl, hwatched, ?_⟩
  cases hran with
  | refused henter =>
      rw [show b.enter (HasJournal.journal s).now = none from henter] at hruns
      rw [if_neg fun hmay => absurd (hruns.mpr hmay) (by simp)]
      exact ⟨rfl, rfl, rfl, rfl⟩
  | @ran b' records e s' henter hresult htime =>
      rw [show b.enter (HasJournal.journal s).now = some (b', records) from henter] at hruns
      rw [if_pos (hruns.mp rfl)]
      obtain ⟨result, time⟩ := e
      obtain rfl : result = (body (HasJournal.log records s)).1 := hresult
      obtain rfl : time = (HasJournal.journal (body (HasJournal.log records s)).2).now := htime
      exact ⟨records, rfl, seen_eq_streak g b' _ endings⟩

theorem after_keeps (g : Guard) (b : Breaker) (e : Ending α) :
    (after g b e).threshold = b.threshold ∧ (after g b e).timeout = b.timeout := by
  unfold after
  split
  next => exact pass_keeps b
  next f _ =>
    obtain ⟨_, htripped, htripped', _⟩ := trip_eq b e.time f
    split
    next => exact ⟨htripped, htripped'⟩
    next => exact pass_keeps b

structure Kin (counts : Failure → Bool) (b : Breaker) (w : Breaker × List (Ending α) × σ) : Prop where
  follows : Follows counts w.1 w.2.1
  threshold : w.1.threshold = b.threshold
  timeout : w.1.timeout = b.timeout

theorem kin_step {g : Guard} {b : Breaker} {w : Breaker × List (Ending α) × σ}
    (h : Kin g.counts b w) (event : Event σ α) : Kin g.counts b (g.step w event) := by
  cases event with
  | between => exact ⟨h.follows, h.threshold, h.timeout⟩
  | call body =>
      have hran := run_ran g w.1 body w.2
      unfold Guard.step
      dsimp only
      generalize g.run w.1 (watched body) w.2 = end' at hran ⊢
      cases hran with
      | refused => exact h
      | @ran b' records e s' henter =>
          obtain ⟨hthreshold, htimeout, _⟩ := enter_cases henter
          obtain ⟨hthreshold', htimeout'⟩ := after_keeps g b' e
          exact ⟨follows_after h.follows henter e,
            hthreshold'.trans (hthreshold.trans h.threshold),
            htimeout'.trans (htimeout.trans h.timeout)⟩

theorem kin_foldl {g : Guard} {b : Breaker} (events : List (Event σ α)) :
    ∀ w : Breaker × List (Ending α) × σ, Kin g.counts b w →
      Kin g.counts b (events.foldl g.step w) := by
  induction events with
  | nil => exact fun w h => h
  | cons event events ih => exact fun w h => ih _ (kin_step h event)

theorem kin_history (g : Guard) (name : Text) (threshold : Int) (timeout : Rat) (s : σ)
    (events : List (Event σ α)) : Kin g.counts (create name threshold timeout)
      (g.history (create name threshold timeout) s events) :=
  kin_foldl events _ ⟨follows_create g.counts name threshold timeout, rfl, rfl⟩

theorem outcome_eq (g : Guard) (b : Breaker) (s : σ) (events : List (Event σ α)) :
    g.outcome b s events = ((g.history b s events).1, (g.history b s events).2.2) := by
  unfold Guard.history Guard.outcome
  generalize ([] : List (Ending α)) = endings
  induction events generalizing b s endings with
  | nil => rfl
  | cons event events ih =>
      rw [List.foldl_cons, List.foldl_cons]
      cases event with
      | between change => exact ih b (change s) endings
      | call body =>
          dsimp only [Guard.step, Guard.move]
          rw [run_watched g b body endings s]
          exact ih _ _ _

end Breaker

theorem Journal.num_mul_of_mul {x : Rat} {scale n : Int} (h : x * scale = n) :
    x.num * scale = n * x.den := by
  have hscaled : (x.num : Rat) * scale = n * x.den := by
    rw [← Rat.mul_den_eq_num, mul_right_comm, h]
  exact_mod_cast hscaled

theorem Journal.microseconds_eq {seconds : Rat} {ticks : Int}
    (h : seconds * (1000000 : Int) = ticks) : microseconds seconds = ticks := by
  have hnum := num_mul_of_mul h
  have hden : 0 < seconds.den := seconds.den_pos
  have habs : seconds.num.natAbs * 1000000 = ticks.natAbs * seconds.den := by
    have habs := congrArg Int.natAbs hnum
    rwa [Int.natAbs_mul, Int.natAbs_mul] at habs
  have hround : Binary64.roundQuotient (seconds.num.natAbs * 1000000) seconds.den =
      ticks.natAbs := by
    rw [habs, Binary64.roundQuotient]
    simp [hden]
  have hsign : seconds.num < 0 ↔ ticks < 0 := by
    have hden' : (0 : Int) < seconds.den := by exact_mod_cast hden
    constructor
    · intro hneg
      by_contra hpos
      have hprod := Int.mul_nonneg (Int.not_lt.mp hpos) hden'.le
      omega
    · intro hneg
      have hprod := Int.mul_neg_of_neg_of_pos hneg hden'
      omega
  unfold microseconds
  rw [hround]
  dsimp only
  split <;> omega

namespace Breaker

variable {σ α : Type} [HasJournal σ]

/-- Whatever calls were made and whatever else happened between them, a breaker counts the failures in a
row of the calls that ran and is open just when they reach its threshold. The next call runs just when
the circuit is closed or the timeout has passed since the last call that ran; its own ending is seen
unless it is a failure that leaves the circuit open. -/
theorem follows_calls (g : Guard) (name : Text) (threshold : Int) (timeout : Rat) (s : σ)
    (events : List (Event σ α)) :
    ∃ b endings s', g.history (create name threshold timeout) s events = (b, endings, s') ∧
      g.outcome (create name threshold timeout) s events = (b, s') ∧
      b.failures = streak g.counts endings ∧
      b.circuit = (if max 1 threshold ≤ (streak g.counts endings : Int) then
        .opened (lastTime endings) else .closed) ∧
      (∀ ticks : Int, timeout * (1000000 : Int) = ticks →
        Journal.microseconds timeout = ticks) ∧
      ∀ body : σ → Except Failure α × σ, ∃ result b' endings' s'',
        g.run b (watched body) (endings, s') = (result, b', endings', s'') ∧
        g.run b body s' = (result, b', s'') ∧
        if b.circuit = .closed ∨
            lastTime endings + Journal.microseconds timeout ≤ (HasJournal.journal s').now then
          ∃ records, endings' = ⟨(body (HasJournal.log records s')).1,
              (HasJournal.journal (body (HasJournal.log records s')).2).now⟩ :: endings ∧
            result = if streak g.counts endings' ≠ 0 ∧ b'.circuit ≠ .closed then
              .error (.circuitOpen g.kind g.service)
            else (body (HasJournal.log records s')).1
        else result = .error (.circuitOpen g.kind g.service) ∧ b' = b ∧ endings' = endings ∧
          s'' = s' := by
  obtain ⟨hfollows, hthreshold, htimeout⟩ := kin_history g name threshold timeout s events
  have houtcome := outcome_eq g (create name threshold timeout) s events
  generalize g.history (create name threshold timeout) s events = w at *
  obtain ⟨b, endings, s'⟩ := w
  have hthreshold' : b.threshold = threshold := hthreshold
  have htimeout' : b.timeout = timeout := htimeout
  subst hthreshold' htimeout'
  exact ⟨b, endings, s', rfl, houtcome, hfollows.failures, hfollows.circuit,
    fun ticks => Journal.microseconds_eq, fun body => call_of_follows hfollows body s'⟩

end Breaker

end RemoteModel
