import RemoteModel.Proofs.Artifact.Fetch
import RemoteModel.Proofs.Calls.Unsent
import RemoteModel.Proofs.Resilience.Attempts
import RemoteModel.Proofs.Results

/-!
Downloads from object storage. The object is asked for at most as often as the policy and the circuit allow,
every attempt before the last one failed in a way worth another, and a download that succeeds leaves in
the file what the last attempt gave and nothing else.
-/

namespace RemoteModel

namespace Delivery

/-- What the object storage does when it is asked for the time number `i`. -/
def nth (script : List (Except Failure Delivery)) (i : Nat) : Except Failure Delivery :=
  script[i]?.getD (.ok ⟨[], none⟩)

def failure? : Except Failure Delivery → Option Failure
  | .error f => some f
  | .ok d => d.failure

theorem nth_tail (script : List (Except Failure Delivery)) (i : Nat) :
    nth script.tail i = nth script (i + 1) := by
  simp [nth]

end Delivery

theorem Host.fetch_eq (name : ObjectName) (h : Host) :
    (h.fetch name).1 = Delivery.nth h.deliveries 0 ∧
      (h.fetch name).2.deliveries = h.deliveries.tail ∧
      (h.fetch name).2.fetched = h.fetched ++ [name] := by
  unfold Host.fetch
  cases hscript : h.deliveries with
  | nil => simp [Delivery.nth]
  | cons r rest => simp [Delivery.nth]

theorem Files.read_of_write {t t' : Tree} {p : Path} {content : Bytes}
    (h : write t p content = .ok t') : read t' p = .ok content := by
  obtain ⟨hpath, hwrite⟩ := write_eq_ok_iff.mp h
  obtain ⟨place, hplace, hstored⟩ := Tree.write_eq_ok hwrite
  exact read_eq_ok_iff.mpr ⟨hpath, hstored.find hplace⟩

namespace ObjectStorage

open Host

variable {name : ObjectName} {target : Path}

/-- What one attempt does: it does not come to ask for the object, or it asks once. Then it succeeds only
with all that it was given in the file, and an error worth another attempt is that of the object storage. -/
inductive Tries (name : ObjectName) (target : Path) (h : Host) : Except Failure Unit → Host → Prop
  | unasked {f : Failure} {h' : Host} : Still h h' → Tries name target h (.error f) h'
  | stored {d : Delivery} {h' : Host} : Delivery.nth h.deliveries 0 = .ok d → d.failure = none →
      h'.fetched = h.fetched ++ [name] → h'.deliveries = h.deliveries.tail →
      Files.read h'.files target = .ok d.pieces.flatten → Tries name target h (.ok ()) h'
  | failed {f : Failure} {h' : Host} : h'.fetched = h.fetched ++ [name] →
      h'.deliveries = h.deliveries.tail → (Classifier.objectStorage.isRetriable f = true →
        Delivery.failure? (Delivery.nth h.deliveries 0) = some f) →
      Tries name target h (.error f) h'

namespace Tries

variable {h h' h'' : Host} {result : Except Failure Unit}

theorem after_still (htries : Tries name target h' result h'') (hstill : Still h h') :
    Tries name target h result h'' := by
  cases htries with
  | unasked hunasked => exact .unasked (hstill.trans hunasked)
  | stored hgiven hwhole hfetched hrest hread =>
      rw [hstill.deliveries] at hgiven hrest
      rw [hstill.fetched] at hfetched
      exact .stored hgiven hwhole hfetched hrest hread
  | failed hfetched hrest hretriable =>
      rw [hstill.deliveries] at hrest hretriable
      rw [hstill.fetched] at hfetched
      exact .failed hfetched hrest hretriable

theorem before_still (htries : Tries name target h result h') (hstill : Still h' h'') :
    Tries name target h result h'' := by
  cases htries with
  | unasked hunasked => exact .unasked (hunasked.trans hstill)
  | stored hgiven hwhole hfetched hrest hread =>
      refine .stored hgiven hwhole (hstill.fetched.trans hfetched) (hstill.deliveries.trans hrest) ?_
      rwa [hstill.files]
  | failed hfetched hrest hretriable =>
      exact .failed (hstill.fetched.trans hfetched) (hstill.deliveries.trans hrest) hretriable

/-- Another error that is worth no further attempt may be told instead. -/
theorem retold {f g : Failure} (htries : Tries name target h (.error f) h')
    (hfinal : Classifier.objectStorage.isRetriable g = false) :
    Tries name target h (.error g) h' := by
  cases htries with
  | unasked hunasked => exact .unasked hunasked
  | failed hfetched hrest _ =>
      refine .failed hfetched hrest fun hretriable => ?_
      rw [hfinal] at hretriable
      cases hretriable

end Tries

/-- Faults of paths and files are worth no further attempt. -/
theorem not_retriable_of_write {t : Tree} {bytes : Bytes} {f : Failure}
    (hwrite : Files.write t target bytes = .error f) :
    Classifier.objectStorage.isRetriable f = false := by
  unfold Files.write at hwrite
  rcases error_of_bind.mp hwrite with hpath | ⟨_, _, hnamed⟩
  · obtain rfl | ⟨_, _, _, rfl⟩ := Files.error_of_checkPath hpath <;> rfl
  · obtain ⟨fault, rfl⟩ := Files.error_of_named hnamed
    cases fault <;> rfl

theorem deliver_tries (s : ObjectStorage) (h : Host) :
    Tries name target h (deliver name target (s, h)).1 (deliver name target (s, h)).2.2 := by
  have hstill := connect_still s h
  unfold deliver
  split
  next f s' hrun =>
    rw [hrun] at hstill
    exact .unasked hstill
  next s' h₁ hrun =>
    rw [hrun] at hstill
    refine Tries.after_still ?_ hstill
    obtain ⟨hgiven, hrest, hfetched⟩ := Host.fetch_eq name h₁
    split
    next f h₂ hfetch =>
      rw [hfetch] at hgiven hrest hfetched
      exact .failed hfetched hrest fun _ => by rw [← hgiven]; rfl
    next d h₂ hfetch =>
      rw [hfetch] at hgiven hrest hfetched
      unfold store
      cases hwrite : Files.write h₂.files target d.pieces.flatten with
      | error f =>
          refine .failed hfetched hrest fun hretriable => ?_
          rw [not_retriable_of_write hwrite] at hretriable
          cases hretriable
      | ok files =>
          cases hfailure : d.failure with
          | some f => exact .failed hfetched hrest fun _ => by rw [← hgiven]; exact hfailure
          | none =>
              exact .stored hgiven.symm hfailure hfetched hrest (Files.read_of_write hwrite)

def guard : Breaker.Guard :=
  ⟨.own .artifactDownload, breakerName, Classifier.objectStorage.isRetriable,
    Classifier.objectStorage.notes⟩

theorem attempt_eq (s : ObjectStorage × Host) : attempt name target s =
    ((guard.run s.1.breaker (deliver name target) s).1,
      { (guard.run s.1.breaker (deliver name target) s).2.2.1 with
        breaker := (guard.run s.1.breaker (deliver name target) s).2.1 },
      (guard.run s.1.breaker (deliver name target) s).2.2.2) := rfl

theorem attempt_refused {s : ObjectStorage} {h : Host}
    (henter : s.breaker.enter h.journal.now = none) :
    attempt name target (s, h) = (.error (.circuitOpen (.own .artifactDownload) breakerName), s, h) := by
  rw [attempt_eq, Breaker.run_refused guard (deliver name target) henter]
  rfl

theorem attempt_tries (s : ObjectStorage) (h : Host) :
    Tries name target h (attempt name target (s, h)).1 (attempt name target (s, h)).2.2 := by
  cases henter : s.breaker.enter h.journal.now with
  | none =>
      rw [attempt_refused henter]
      exact .unasked (.refl h)
  | some entered =>
      obtain ⟨b, records⟩ := entered
      obtain ⟨s', hlogged, hrun⟩ := Breaker.run_of_enter guard (deliver name target) (s, h) henter
        (Prod.mk.eta).symm
      have htries := (@deliver_tries name target s (HasJournal.log records h)).after_still
        (.log records h)
      rw [attempt_eq, hrun]
      refine Tries.before_still ?_ hlogged.still
      unfold Breaker.seen
      split
      next hopens =>
        obtain ⟨f, hf, -⟩ := Breaker.result_of_failed hopens.1
        rw [show (deliver name target (s, HasJournal.log records h)).1 = .error f from hf] at htries
        exact htries.retold rfl
      next => exact htries

theorem attempt_keeps (s : ObjectStorage × Host) :
    (attempt name target s).2.1.breaker.threshold = s.1.breaker.threshold := by
  exact (s.1.breaker.run_keeps guard.kind guard.service guard.counts guard.notes
    (deliver name target) s).2.1

/-- After an error worth another attempt the circuit is closed, with one failure more. -/
theorem attempt_counted {s : ObjectStorage × Host} {f : Failure}
    (hfails : (attempt name target s).1 = .error f)
    (hretriable : Classifier.objectStorage.isRetriable f = true) :
    (attempt name target s).2.1.breaker.failures = s.1.breaker.failures + 1 ∧
      (s.1.breaker.failures : Int) + 1 < s.1.breaker.threshold := by
  have hrun : guard.run s.1.breaker (deliver name target) s =
      (.error f, (guard.run s.1.breaker (deliver name target) s).2) := Prod.ext hfails rfl
  obtain ⟨hmore, hfew, -⟩ := Breaker.run_counted guard rfl hrun hretriable
  exact ⟨hmore, hfew⟩

/-- The requests of a run of attempts from a state on. -/
structure Asks (name : ObjectName) (target : Path) (limit : Int) (h : Host)
    (ending : Except Failure Unit × ObjectStorage × Host) (times : Nat) : Prop where
  fetched : ending.2.2.fetched = h.fetched ++ List.replicate times name
  limit : (times : Int) ≤ max 1 limit
  before : ∀ i, i + 1 < times → ∃ f, Delivery.failure? (Delivery.nth h.deliveries i) = some f ∧
    Classifier.objectStorage.isRetriable f = true
  last : ending.1 = .ok () → ∃ i d, times = i + 1 ∧ Delivery.nth h.deliveries i = .ok d ∧
    d.failure = none ∧ Files.read ending.2.2.files target = .ok d.pieces.flatten

theorem asks_single {s : ObjectStorage} {h h' : Host} {result : Except Failure Unit} {limit : Int}
    (htries : Tries name target h result h') :
    ∃ times, Asks name target limit h (result, s, h') times := by
  cases htries with
  | unasked hunasked =>
      refine ⟨0, by simp [hunasked.fetched], ?_, nofun, nofun⟩
      exact (Int.zero_le_ofNat 1).trans (Int.le_max_left 1 limit)
  | stored hgiven hwhole hfetched hrest hread =>
      refine ⟨1, hfetched, Int.le_max_left 1 limit, fun i hi => ?_, fun _ => ?_⟩
      · omega
      · exact ⟨0, _, rfl, hgiven, hwhole, hread⟩
  | failed hfetched hrest hretriable =>
      refine ⟨1, hfetched, Int.le_max_left 1 limit, fun i hi => ?_, nofun⟩
      omega

/-- An attempt that is followed by others makes one request more than these, or none. -/
theorem Asks.again {h h' : Host} {f : Failure} {limit limit' : Int} {times : Nat}
    {ending : Except Failure Unit × ObjectStorage × Host} (htries : Tries name target h (.error f) h')
    (hretriable : Classifier.objectStorage.isRetriable f = true) (hlimit : 1 ≤ limit)
    (hless : limit + 1 ≤ limit') (hrest : Asks name target limit h' ending times) :
    ∃ times, Asks name target limit' h ending times := by
  have hfew := hrest.limit
  cases htries with
  | unasked hunasked =>
      refine ⟨times, ?_, by omega, fun i hi => ?_, fun hok => ?_⟩
      · rw [hrest.fetched, hunasked.fetched]
      · rw [← hunasked.deliveries]
        exact hrest.before i hi
      · rw [← hunasked.deliveries]
        exact hrest.last hok
  | failed hfetched htail hfailure =>
      refine ⟨times + 1, ?_, by omega, fun i hi => ?_, fun hok => ?_⟩
      · rw [hrest.fetched, hfetched, List.append_assoc]
        rfl
      · cases i with
        | zero => exact ⟨f, hfailure hretriable, hretriable⟩
        | succ i =>
            rw [← Delivery.nth_tail, ← htail]
            exact hrest.before i (by omega)
      · obtain ⟨i, d, rfl, hgiven, hwhole, hread⟩ := hrest.last hok
        rw [htail, Delivery.nth_tail] at hgiven
        exact ⟨i + 1, d, rfl, hgiven, hwhole, hread⟩

theorem Asks.after_still {h h' : Host} {limit : Int} {times : Nat}
    {ending : Except Failure Unit × ObjectStorage × Host}
    (hasks : Asks name target limit h' ending times) (hstill : Still h h') :
    Asks name target limit h ending times where
  fetched := by rw [hasks.fetched, hstill.fetched]
  limit := hasks.limit
  before i hi := by
    rw [← hstill.deliveries]
    exact hasks.before i hi
  last hok := by
    rw [← hstill.deliveries]
    exact hasks.last hok

theorem asks_of_pursued {p : RetryPolicy} {number more : Nat} {s : ObjectStorage × Host}
    {attempts : List (Retry.Attempt (ObjectStorage × Host) Unit)}
    {ending : Except Failure Unit × ObjectStorage × Host}
    (h : Retry.Pursued p .objectStorage (attempt name target) number more s attempts ending) :
    ∃ times, Asks name target
      (min ((more : Int) + 1) (s.1.breaker.threshold - s.1.breaker.failures)) s.2 ending times := by
  induction h with
  | @last number more s s' _ hlogged =>
      obtain ⟨storage, host⟩ := s'
      exact asks_single ((attempt_tries s.1 s.2).before_still hlogged.still)
  | @again number more s s' f rest ending hfails hretriable hlogged _ ih =>
      obtain ⟨times, hrest⟩ := ih
      obtain ⟨hmore, hfew⟩ := attempt_counted hfails hretriable
      have hthreshold := @attempt_keeps name target s
      have htries := @attempt_tries name target s.1 s.2
      rw [hfails] at htries
      have hsame : s'.1 = (attempt name target s).2.1 := hlogged.fst
      change Asks name target (min ((more : Int) + 1) (s'.1.breaker.threshold -
        s'.1.breaker.failures)) (HasJournal.sleep (p.wait number) s'.2) ending times at hrest
      rw [hsame, hmore, hthreshold] at hrest
      have hasked := (hrest.after_still (.sleep (p.wait number) s'.2)).after_still hlogged.still
      refine hasked.again htries hretriable ?_ ?_ <;> push_cast <;> omega

/-- The folders are there, so what is left of a download is the run of its attempts. -/
theorem download_of_made {s : ObjectStorage} {h : Host} {files : Tree}
    (hmade : Files.makeFolders target.parent h.files = (.ok (), files)) :
    s.download name target h =
      ((Retry.run s.policy .objectStorage voice (attempt name target)
          (s, HasJournal.log [s.announcement name] { h with files })).1.mapError s.blamed,
        (Retry.run s.policy .objectStorage voice (attempt name target)
          (s, HasJournal.log [s.announcement name] { h with files })).2) := by
  unfold download
  rw [hmade]
  dsimp only
  generalize Retry.run s.policy .objectStorage voice (attempt name target)
    (s, HasJournal.log [s.announcement name] { h with files }) = ending
  obtain ⟨result, s', h'⟩ := ending
  cases result <;> rfl

theorem enter_of_waits {b : Breaker} {since now : Int} (hopened : b.circuit = .opened since)
    (hwaits : now < since + Journal.microseconds b.timeout) : b.enter now = none := by
  unfold Breaker.enter
  rw [hopened]
  exact if_pos hwaits

/-- While the circuit is open the first attempt is the last, and it is refused. -/
theorem fetched_of_refused {p : RetryPolicy} {number more : Nat} {s : ObjectStorage} {h : Host}
    {attempts : List (Retry.Attempt (ObjectStorage × Host) Unit)}
    {ending : Except Failure Unit × ObjectStorage × Host}
    (hpursued : Retry.Pursued p .objectStorage (attempt name target) number more (s, h) attempts
      ending) (henter : s.breaker.enter h.journal.now = none) :
    ending.2.2.fetched = h.fetched := by
  have hrefused := @attempt_refused name target s h henter
  obtain ⟨-, -, hlogged⟩ := hpursued.single (fun f hf => by
    rw [hrefused] at hf
    cases hf
    rfl)
  rw [hrefused] at hlogged
  exact hlogged.still.fetched

/-- Requests for the object and what they leave in the file. While the circuit is open nothing is asked of
the object storage; otherwise it is asked no more often than there may be attempts, or failures until the
circuit opens. Each request before the last one ended in an error worth another attempt, and after a
success the file holds what the last one gave, and nothing else. -/
theorem download_asks (s : ObjectStorage) (name : ObjectName) (target : Path) (h : Host) :
    ∃ result s' h' times, s.download name target h = (result, s', h') ∧
      h'.fetched = h.fetched ++ List.replicate times name ∧
      (∀ since, s.breaker.circuit = .opened since →
        h.journal.now < since + Journal.microseconds s.breaker.timeout → times = 0) ∧
      (times : Int) ≤
        max 1 (min s.policy.attempts (s.breaker.threshold - s.breaker.failures)) ∧
      (∀ i, i + 1 < times → ∃ f, Delivery.failure? (Delivery.nth h.deliveries i) = some f ∧
        Classifier.objectStorage.isRetriable f = true) ∧
      (result = .ok () → ∃ i d, times = i + 1 ∧ Delivery.nth h.deliveries i = .ok d ∧
        d.failure = none ∧ Files.read h'.files target = .ok d.pieces.flatten) := by
  cases hmade : Files.makeFolders target.parent h.files with
  | mk made files =>
      cases made with
      | error f =>
          refine ⟨.error f, s, { h with files }, 0, ?_, by simp, fun _ _ _ => rfl, ?_, nofun, nofun⟩
          · unfold download
            rw [hmade]
          · exact (Int.zero_le_ofNat 1).trans (Int.le_max_left 1 _)
      | ok =>
          have hdownload := @download_of_made name target s h files hmade
          obtain ⟨attempts, result, ⟨s', h'⟩, -, hrun, hpursued⟩ := Retry.run_pursued s.policy
            Classifier.isClean_objectStorage voice (attempt name target)
            (s, HasJournal.log [s.announcement name] { h with files })
          obtain ⟨times, hfetched, hlimit, hbefore, hlast⟩ := asks_of_pursued hpursued
          rw [hrun] at hdownload
          refine ⟨result.mapError s.blamed, s', h', times, hdownload, hfetched,
            fun since hopened hwaits => ?_, ?_, hbefore,
            fun hdone => hlast (ok_of_mapError.mpr (ok_of_mapError.mp hdone))⟩
          · have hsame : h'.fetched = h.fetched :=
              fetched_of_refused hpursued (enter_of_waits hopened hwaits)
            have hlength := congrArg List.length (hsame.symm.trans hfetched)
            simp only [List.length_append, List.length_replicate] at hlength
            exact Nat.left_eq_add.mp hlength
          · dsimp only at hlimit
            omega

def tornStorage : ObjectStorage :=
  { create ⟨"test", .resource, .null, none⟩ none (.ofInt 10) (.ofInt 60) .standard 5 120 with
    isOpen := true }

def tornName : ObjectName := ⟨"n", "b", "o"⟩

/-- The first stream breaks after a chunk, the second one is whole. -/
def tornHost : Host :=
  { Host.start 0 with
    deliveries := [.ok ⟨[[1, 2]], some Host.unreachable⟩, .ok ⟨[[3], [4]], none⟩] }

theorem torn_download_asks : ∃ s' h',
    tornStorage.download tornName (Path.ofText "/x") tornHost = (.ok (), s', h') ∧
      h'.fetched = [tornName, tornName] ∧
      Files.read h'.files (Path.ofText "/x") = .ok [3, 4] := by
  have hrun : (tornStorage.download tornName (Path.ofText "/x") tornHost).1 = .ok () ∧
      (tornStorage.download tornName (Path.ofText "/x") tornHost).2.2.fetched =
        [tornName, tornName] := by
    decide +kernel
  obtain ⟨result, s', h', times, hdownload, hfetched, -, -, -, hlast⟩ :=
    download_asks tornStorage tornName (Path.ofText "/x") tornHost
  rw [hdownload] at hrun
  obtain ⟨rfl, htwice⟩ : result = .ok () ∧ h'.fetched = [tornName, tornName] := hrun
  obtain ⟨i, d, rfl, hgiven, -, hread⟩ := hlast rfl
  obtain rfl : i = 1 := by
    have hlength := congrArg List.length (hfetched.symm.trans htwice)
    simpa [tornHost, Host.start] using hlength
  cases hgiven
  exact ⟨s', h', hdownload, htwice, hread⟩

end ObjectStorage

end RemoteModel
