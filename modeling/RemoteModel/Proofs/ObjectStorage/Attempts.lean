import RemoteModel.Proofs.Auth.Supply
import RemoteModel.Proofs.ObjectStorage

/-!
What attempts of a download come to. An attempt asks for the object once if the circuit lets it run and
there is a client for it, and else not; and of the errors that are told as no other error each has its cause
in the signer, in an answer, in the path or in a stream.
-/

namespace RemoteModel

/-- Classes of errors that a download tells as its own failure. -/
def ErrorClass.isCaught (c : ErrorClass) : Bool :=
  c.isA (.cloud .service) || c.isA (.cloud .client) || c.isA (.basic .osError)

theorem ErrorClass.isCaught_of_trouble {c : ErrorClass}
    (h : (c.isA (.cloud .request) || c.isA (.http .connection) || c.isA (.http .timeout)) = true) :
    c.isCaught = true := by
  have hall : ∀ c ∈ all, (c.isA (.cloud .request) || c.isA (.http .connection) ||
      c.isA (.http .timeout)) = true → c.isCaught = true := by
    decide +kernel
  exact hall c c.mem_all h

/-- What is caught is an ordinary error and none of the key. -/
theorem ErrorClass.ordinary_of_isCaught {c : ErrorClass} (h : c.isCaught = true) :
    c.isA (.basic .exception) = true ∧ c.isA (.own .keyLoad) = false := by
  have hall : ∀ c ∈ all, c.isCaught = true →
      c.isA (.basic .exception) = true ∧ c.isA (.own .keyLoad) = false := by
    decide +kernel
  exact hall c c.mem_all h

namespace ObjectStorage

open Host

def Reported (f : Failure) : Prop :=
  f.isA (.own .artifactDownload) = true ∨ f.isA (.own .keyLoad) = true

/-- Errors that no part of a download tells as another one. -/
structure Untold (f : Failure) : Prop where
  uncaught : f.kind.isCaught = false
  unreported : ¬Reported f

theorem isCaught_of_retriable {f : Failure} (h : Classifier.objectStorage.isRetriable f = true) :
    f.kind.isCaught = true := by
  unfold Classifier.objectStorage at h
  dsimp only at h
  split at h
  next => rfl
  next => exact ErrorClass.isCaught_of_trouble h

theorem Untold.not_retriable {f : Failure} (h : Untold f) :
    Classifier.objectStorage.isRetriable f = false := by
  rw [Bool.eq_false_iff]
  intro hretriable
  cases (isCaught_of_retriable hretriable).symm.trans h.uncaught

theorem not_retriable_of_signer {s : LazySigner} {h : Host} {f : Failure}
    (hfails : (s.get h).1 = .error f) : Classifier.objectStorage.isRetriable f = false := by
  obtain ⟨g, -, rfl⟩ := LazySigner.error_of_get hfails
  rw [Bool.eq_false_iff]
  intro hretriable
  obtain ⟨hordinary, hkeyless⟩ :=
    ErrorClass.ordinary_of_isCaught (isCaught_of_retriable hretriable)
  rcases s.blamed_cases g with hkey | ⟨hsame, hstrange⟩
  · cases hkey.symm.trans hkeyless
  · rw [hsame] at hordinary
    cases hordinary.symm.trans hstrange

/-- What makes attempts that have asked for the object some times end in an error that is not told as
another one. -/
inductive Cause (s : ObjectStorage) (target : Path) (h h' : Host) : Nat → Failure → Prop
  | signer {entered : Breaker × List LogRecord} {f : Failure} :
      s.breaker.enter h.journal.now = some entered → s.isOpen = false →
      (s.signer.get h).1 = .error f → Cause s target h h' 0 f
  | answer {i : Nat} {f : Failure} :
      Delivery.nth h.deliveries i = .error f → Cause s target h h' (i + 1) f
  | path {i : Nat} {d : Delivery} {f : Failure} : Delivery.nth h.deliveries i = .ok d →
      Files.checkPath target = .error f → Cause s target h h' (i + 1) f
  | stream {i : Nat} {d : Delivery} {f : Failure} : Delivery.nth h.deliveries i = .ok d →
      d.failure = some f → Files.read h'.files target = .ok d.pieces.flatten →
      Cause s target h h' (i + 1) f

variable {name : ObjectName} {target : Path}

theorem connect_cases (s : ObjectStorage) (h : Host) :
    (∃ f, s.isOpen = false ∧ (s.signer.get h).1 = .error f ∧ (connect (s, h)).1 = .error f) ∨
      (connect (s, h)).1 = .ok () ∧ (connect (s, h)).2.1.isOpen = true ∧
        (s.isOpen = false → ∃ found, (s.signer.get h).1 = .ok found) := by
  unfold connect
  dsimp only
  cases hopen : s.isOpen with
  | true => exact .inr ⟨rfl, hopen, nofun⟩
  | false =>
      rw [if_neg Bool.false_ne_true]
      cases hget : s.signer.get h with
      | mk result rest =>
          cases result with
          | error f => exact .inl ⟨f, rfl, rfl, rfl⟩
          | ok found => exact .inr ⟨rfl, rfl, fun _ => ⟨found, rfl⟩⟩

/-- What an attempt makes of the answer to its request. -/
inductive Served (target : Path) (h : Host) : Except Failure Unit → Host → Prop
  | refused {f : Failure} {h' : Host} :
      Delivery.nth h.deliveries 0 = .error f → Served target h (.error f) h'
  | unwritten {d : Delivery} {f : Failure} {h' : Host} : Delivery.nth h.deliveries 0 = .ok d →
      Files.write h.files target d.pieces.flatten = .error f → h'.files = h.files →
      Served target h (.error f) h'
  | written {d : Delivery} {h' : Host} : Delivery.nth h.deliveries 0 = .ok d →
      Files.write h.files target d.pieces.flatten = .ok h'.files →
      Served target h (match d.failure with | some f => .error f | none => .ok ()) h'

theorem deliver_served {s s' : ObjectStorage} {h h₁ : Host}
    (hconnect : connect (s, h) = (.ok (), s', h₁)) :
    (deliver name target (s, h)).2.1 = s' ∧
      Served target h₁ (deliver name target (s, h)).1 (deliver name target (s, h)).2.2 ∧
      (deliver name target (s, h)).2.2.fetched = h₁.fetched ++ [name] ∧
      (deliver name target (s, h)).2.2.deliveries = h₁.deliveries.tail := by
  unfold deliver
  rw [hconnect]
  dsimp only
  obtain ⟨hgiven, hrest, hfetched⟩ := Host.fetch_eq name h₁
  have hfiles := (fetch_cases name h₁).1
  split
  next f h₂ hfetch =>
    rw [hfetch] at hgiven hrest hfetched
    exact ⟨rfl, .refused hgiven.symm, hfetched, hrest⟩
  next d h₂ hfetch =>
    rw [hfetch] at hgiven hrest hfetched hfiles
    unfold store
    cases hwrite : Files.write h₂.files target d.pieces.flatten with
    | error f =>
        rw [show h₂.files = h₁.files from hfiles] at hwrite
        exact ⟨rfl, .unwritten hgiven.symm hwrite hfiles, hfetched, hrest⟩
    | ok files =>
        rw [show h₂.files = h₁.files from hfiles] at hwrite
        exact ⟨rfl, .written hgiven.symm hwrite, hfetched, hrest⟩

theorem Cause.of_files {s : ObjectStorage} {h h' h'' : Host} {times : Nat} {f : Failure}
    (hcause : Cause s target h h' times f) (hfiles : h''.files = h'.files) :
    Cause s target h h'' times f := by
  cases hcause with
  | signer henter hclosed hfails => exact .signer henter hclosed hfails
  | answer hgiven => exact .answer hgiven
  | path hgiven hpath => exact .path hgiven hpath
  | stream hgiven hbroken hread => exact .stream hgiven hbroken (by rwa [hfiles])

theorem Cause.log_iff {s : ObjectStorage} (records : List LogRecord) {h h' : Host} {times : Nat}
    {f : Failure} :
    Cause s target (HasJournal.log records h) h' times f ↔ Cause s target h h' times f := by
  constructor
  · rintro (⟨henter, hclosed, hfails⟩ | hgiven | ⟨hgiven, hpath⟩ | ⟨hgiven, hbroken, hread⟩)
    · exact .signer henter hclosed (by rwa [LazySigner.get_log] at hfails)
    · exact .answer hgiven
    · exact .path hgiven hpath
    · exact .stream hgiven hbroken hread
  · rintro (⟨henter, hclosed, hfails⟩ | hgiven | ⟨hgiven, hpath⟩ | ⟨hgiven, hbroken, hread⟩)
    · exact .signer henter hclosed (by rwa [LazySigner.get_log])
    · exact .answer hgiven
    · exact .path hgiven hpath
    · exact .stream hgiven hbroken hread

theorem Cause.after_asked {s s' : ObjectStorage} {h h' k k' : Host} {i : Nat} {f : Failure}
    (hcause : Cause s target h h' (i + 1) f) (hdeliveries : k.deliveries = h.deliveries)
    (hfiles : k'.files = h'.files) : Cause s' target k k' (i + 1) f := by
  cases hcause with
  | answer hgiven => exact .answer (by rwa [hdeliveries])
  | path hgiven hpath => exact .path (by rwa [hdeliveries]) hpath
  | stream hgiven hbroken hread => exact .stream (by rwa [hdeliveries]) hbroken (by rwa [hfiles])

theorem Cause.asked_iff {s s' : ObjectStorage} {h h' k k' : Host} {i : Nat} {f : Failure}
    (hdeliveries : k.deliveries = h.deliveries) (hfiles : k'.files = h'.files) :
    Cause s target k h' (i + 1) f ↔ Cause s' target h k' (i + 1) f :=
  ⟨fun hcause => hcause.after_asked hdeliveries.symm hfiles,
    fun hcause => hcause.after_asked hdeliveries hfiles.symm⟩

theorem Served.cause {s : ObjectStorage} {h h' : Host} {result : Except Failure Unit}
    (hserved : Served target h result h') {f : Failure} (huntold : Untold f) :
    result = .error f ↔ Cause s target h h' 1 f := by
  cases hserved with
  | refused hgiven =>
      constructor
      · rintro ⟨⟩
        exact .answer hgiven
      · rintro (_ | hgiven' | ⟨hgiven', -⟩ | ⟨hgiven', -, -⟩) <;> cases hgiven.symm.trans hgiven'
        rfl
  | @unwritten d g h' hgiven hwrite hfiles =>
      constructor
      · rintro ⟨⟩
        cases hpath : Files.checkPath target with
        | error e =>
            cases hwrite.symm.trans (Files.write_of_checkPath hpath)
            exact .path hgiven hpath
        | ok =>
            have hcaught : f.kind.isCaught = true := by
              unfold ErrorClass.isCaught
              rw [show f.kind.isA (.basic .osError) = true from Files.write_eq_error hpath hwrite,
                Bool.or_true]
            cases hcaught.symm.trans huntold.uncaught
      · rintro (_ | hgiven' | ⟨-, hpath⟩ | ⟨-, -, hread⟩)
        · cases hgiven.symm.trans hgiven'
        · cases hwrite.symm.trans (Files.write_of_checkPath hpath)
          rfl
        · rw [hfiles] at hread
          obtain ⟨_, hwritten⟩ := Files.write_of_read hread d.pieces.flatten
          cases hwrite.symm.trans hwritten
  | written hgiven hwrite =>
      constructor
      · intro hresult
        split at hresult
        next f' hbroken =>
          cases hresult
          exact .stream hgiven hbroken (Files.read_of_write hwrite)
        next => cases hresult
      · rintro (_ | hgiven' | ⟨-, hpath⟩ | ⟨hgiven', hbroken, -⟩)
        · cases hgiven.symm.trans hgiven'
        · cases hwrite.symm.trans (Files.write_of_checkPath hpath)
        · cases hgiven.symm.trans hgiven'
          rw [hbroken]

/-- The circuit lets an attempt run, and there is a client for it. -/
def Ready (s : ObjectStorage) (h : Host) : Prop :=
  s.breaker.enter h.journal.now ≠ none ∧
    (s.isOpen = false → ∃ found, (s.signer.get h).1 = .ok found)

/-- An attempt does not come to ask for the object, which is final, or it asks once. -/
inductive Turn (name : ObjectName) (target : Path) (s : ObjectStorage) (h : Host)
    (ending : Except Failure Unit × ObjectStorage × Host) : Prop
  | unasked {f : Failure} : ¬Ready s h → ending.1 = .error f →
      Classifier.objectStorage.isRetriable f = false → Still h ending.2.2 →
      (∀ f, Untold f → (ending.1 = .error f ↔ Cause s target h ending.2.2 0 f)) →
      Turn name target s h ending
  | asked : Ready s h → ending.2.1.isOpen = true → ending.2.2.fetched = h.fetched ++ [name] →
      ending.2.2.deliveries = h.deliveries.tail →
      (∀ f, Untold f → (ending.1 = .error f ↔ Cause s target h ending.2.2 1 f)) →
      Turn name target s h ending

theorem Untold.ne_circuitOpen {f : Failure} (h : Untold f) :
    (Except.error (.circuitOpen (.own .artifactDownload) breakerName) : Except Failure Unit) ≠
      .error f := by
  rintro ⟨⟩
  exact h.unreported (.inl rfl)

/-- What the breaker tells instead of an error is no such error, and neither is what it hides. -/
theorem seen_iff {b : Breaker} {e : Breaker.Ending Unit} {f : Failure} (h : Untold f) :
    Breaker.seen guard b e = .error f ↔ e.result = .error f := by
  unfold Breaker.seen
  split
  next hopens =>
    obtain ⟨g, hg, hretriable⟩ := Breaker.result_of_failed hopens.1
    refine iff_of_false h.ne_circuitOpen fun hf => ?_
    cases hg.symm.trans hf
    cases h.not_retriable.symm.trans hretriable
  next => exact Iff.rfl

theorem deliver_unconnected {s : ObjectStorage × Host} {f : Failure}
    (hfails : (connect s).1 = .error f) : deliver name target s = (.error f, (connect s).2) := by
  have hconnect : connect s = (.error f, (connect s).2) := Prod.ext hfails rfl
  unfold deliver
  rw [hconnect]

theorem attempt_of_enter {s s₁ : ObjectStorage} {h h₁ : Host} {b : Breaker}
    {records : List LogRecord} {result : Except Failure Unit}
    (henter : s.breaker.enter h.journal.now = some (b, records))
    (hdeliver : deliver name target (s, HasJournal.log records h) = (result, s₁, h₁)) :
    (attempt name target (s, h)).1 = Breaker.seen guard b ⟨result, h₁.journal.now⟩ ∧
      (attempt name target (s, h)).2.1.isOpen = s₁.isOpen ∧
      Still h₁ (attempt name target (s, h)).2.2 := by
  obtain ⟨s', hlogged, hrun⟩ := Breaker.run_of_enter guard (deliver name target) (s, h) henter hdeliver
  rw [attempt_eq, hrun]
  have hsame : s'.1.isOpen = s₁.isOpen := congrArg isOpen hlogged.fst
  exact ⟨rfl, hsame, hlogged.still⟩

theorem attempt_turn (s : ObjectStorage) (h : Host) :
    Turn name target s h (attempt name target (s, h)) := by
  cases henter : s.breaker.enter h.journal.now with
  | none =>
      rw [attempt_refused henter]
      refine .unasked (fun hready => hready.1 henter) rfl rfl (.refl h) fun f huntold =>
        iff_of_false huntold.ne_circuitOpen ?_
      rintro ⟨hentered, -, -⟩
      cases henter.symm.trans hentered
  | some entered =>
      obtain ⟨b, records⟩ := entered
      have hstill := (Still.log records h).trans (connect_still s (HasJournal.log records h))
      rcases connect_cases s (HasJournal.log records h) with
        ⟨f, hclosed, hfails, hended⟩ | ⟨hdone, hopen, hsigned⟩
      · obtain ⟨hseen, -, hstill'⟩ := attempt_of_enter henter (deliver_unconnected hended)
        have hfinal := not_retriable_of_signer hfails
        rw [LazySigner.get_log] at hfails
        have hresult : (attempt name target (s, h)).1 = .error f := by
          rw [hseen, (Breaker.after_of_passed (g := guard) (by exact hfinal) b).2]
        refine .unasked ?_ hresult hfinal (hstill.trans hstill') fun g _ => ?_
        · rintro ⟨-, hsigned⟩
          obtain ⟨_, hfound⟩ := hsigned hclosed
          cases hfails.symm.trans hfound
        · rw [hresult]
          constructor
          · rintro ⟨⟩
            exact .signer henter hclosed hfails
          · rintro ⟨-, -, hfails'⟩
            cases hfails.symm.trans hfails'
            rfl
      · obtain ⟨hsame, hserved, hfetched, hrest⟩ :=
          @deliver_served name target s _ _ _ (Prod.ext hdone rfl)
        obtain ⟨hseen, hopen', hstill'⟩ :=
          @attempt_of_enter name target s _ h _ b records _ henter Prod.mk.eta.symm
        refine .asked ⟨by rw [henter]; nofun, ?_⟩ ?_ ?_ ?_ fun f huntold => ?_
        · rwa [LazySigner.get_log] at hsigned
        · rw [hopen', hsame, hopen]
        · rw [hstill'.fetched, hfetched, hstill.fetched]
        · rw [hstill'.deliveries, hrest, hstill.deliveries]
        · rw [hseen, seen_iff huntold, hserved.cause (s := s) huntold]
          exact Cause.asked_iff hstill.deliveries hstill'.files

/-- An attempt that is followed by others has asked for the object and got the error. -/
theorem asked_of_retriable {s : ObjectStorage} {h : Host} {f : Failure}
    (hfails : (attempt name target (s, h)).1 = .error f)
    (hretriable : Classifier.objectStorage.isRetriable f = true) :
    Ready s h ∧ (attempt name target (s, h)).2.1.isOpen = true ∧
      (attempt name target (s, h)).2.2.fetched = h.fetched ++ [name] ∧
      (attempt name target (s, h)).2.2.deliveries = h.deliveries.tail ∧
      ∀ g h', Untold g → ¬Cause s target h h' 1 g := by
  cases @attempt_turn name target s h with
  | unasked _ hfails' hfinal =>
      cases hfails.symm.trans hfails'
      cases hretriable.symm.trans hfinal
  | asked hready hopen hfetched hrest hcause =>
      refine ⟨hready, hopen, hfetched, hrest, fun g h' huntold hg => ?_⟩
      have hother : f ≠ g := by
        rintro rfl
        cases hretriable.symm.trans huntold.not_retriable
      have hfailure : Delivery.failure? (Delivery.nth h.deliveries 0) = some f := by
        have htries := @attempt_tries name target s h
        rw [hfails] at htries
        cases htries with
        | unasked hstill => simp [hstill.fetched] at hfetched
        | failed _ _ hfailure => exact hfailure hretriable
      cases hg with
      | answer hgiven =>
          rw [hgiven] at hfailure
          exact hother (Option.some.inj hfailure).symm
      | path hgiven hpath =>
          exact hother (Except.error.inj (hfails.symm.trans
            ((hcause g huntold).mpr (.path hgiven hpath))))
      | stream hgiven hbroken _ =>
          rw [hgiven] at hfailure
          exact hother (Option.some.inj (hfailure.symm.trans hbroken))

theorem cause_succ_iff {s s' : ObjectStorage} {h h' k : Host} {times : Nat} {f : Failure}
    (hopen : s'.isOpen = true) (hrest : k.deliveries = h.deliveries.tail)
    (hfirst : ¬Cause s target h h' 1 f) :
    Cause s' target k h' times f ↔ Cause s target h h' (times + 1) f := by
  have hnext (i : Nat) : Delivery.nth k.deliveries i = Delivery.nth h.deliveries (i + 1) := by
    rw [hrest, Delivery.nth_tail]
  cases times with
  | zero =>
      refine iff_of_false ?_ hfirst
      rintro ⟨-, hclosed, -⟩
      cases hopen.symm.trans hclosed
  | succ i =>
      constructor
      · rintro (_ | hgiven | ⟨hgiven, hpath⟩ | ⟨hgiven, hbroken, hread⟩) <;> rw [hnext] at hgiven
        · exact .answer hgiven
        · exact .path hgiven hpath
        · exact .stream hgiven hbroken hread
      · rintro (_ | hgiven | ⟨hgiven, hpath⟩ | ⟨hgiven, hbroken, hread⟩) <;> rw [← hnext] at hgiven
        · exact .answer hgiven
        · exact .path hgiven hpath
        · exact .stream hgiven hbroken hread

structure Ends (name : ObjectName) (target : Path) (s : ObjectStorage) (h : Host)
    (ending : Except Failure Unit × ObjectStorage × Host) (times : Nat) : Prop where
  fetched : ending.2.2.fetched = h.fetched ++ List.replicate times name
  asked : 1 ≤ times ↔ Ready s h
  cause : ∀ f, Untold f → (ending.1 = .error f ↔ Cause s target h ending.2.2 times f)

theorem ends_of_pursued {p : RetryPolicy} {number more : Nat} {s : ObjectStorage × Host}
    {attempts : List (Retry.Attempt (ObjectStorage × Host) Unit)}
    {ending : Except Failure Unit × ObjectStorage × Host}
    (h : Retry.Pursued p .objectStorage (attempt name target) number more s attempts ending) :
    ∃ times, Ends name target s.1 s.2 ending times := by
  induction h with
  | @last number more s s' _ hlogged =>
      have hstill := hlogged.still
      cases @attempt_turn name target s.1 s.2 with
      | unasked hunready _ _ hstill' hcause =>
          refine ⟨0, ?_, iff_of_false (by decide) hunready, fun f huntold => ?_⟩
          · simp [(hstill'.trans hstill).fetched]
          · refine (hcause f huntold).trans ⟨fun hf => hf.of_files hstill.files,
              fun hf => hf.of_files hstill.files.symm⟩
      | asked hready _ hfetched _ hcause =>
          refine ⟨1, hstill.fetched.trans hfetched, iff_of_true le_rfl hready, fun f huntold => ?_⟩
          exact (hcause f huntold).trans (Cause.asked_iff rfl hstill.files)
  | @again number more s s' f rest ending hfails hretriable hlogged _ ih =>
      obtain ⟨times, hends⟩ := ih
      obtain ⟨hready, hopen, hfetched, hrest, hfirst⟩ := asked_of_retriable hfails hretriable
      have hstill : Still (attempt name target s).2.2 (HasJournal.sleep (p.wait number) s').2 :=
        hlogged.still.trans (.sleep _ s'.2)
      have hopen' : s'.1.isOpen = true := (congrArg isOpen hlogged.fst).trans hopen
      have hdeliveries : (HasJournal.sleep (p.wait number) s').2.deliveries = s.2.deliveries.tail :=
        hstill.deliveries.trans hrest
      refine ⟨times + 1, ?_, iff_of_true (Nat.le_add_left 1 times) hready, fun g huntold => ?_⟩
      · rw [hends.fetched, hstill.fetched, hfetched, List.append_assoc]
        rfl
      · rw [hends.cause g huntold]
        exact cause_succ_iff hopen' hdeliveries (hfirst g _ huntold)

/-- A storage that has no client yet asks for the object once at least if the folders can be made and the
signer can be had, and else not at all. -/
theorem download_requests (s : ObjectStorage) (name : ObjectName) (target : Path)
    (h : Host) (hclosed : s.breaker.circuit = .closed) (hunopened : s.isOpen = false) :
    ∃ times, (s.download name target h).2.2.fetched = h.fetched ++ List.replicate times name ∧
      (1 ≤ times ↔ (Files.makeFolders target.parent h.files).1 = .ok () ∧
        ∃ found, (s.signer.get { h with
          files := (Files.makeFolders target.parent h.files).2 }).1 = .ok found) := by
  cases hmade : Files.makeFolders target.parent h.files with
  | mk made files =>
      cases made with
      | error f =>
          refine ⟨0, ?_, iff_of_false (by decide) nofun⟩
          unfold download
          rw [hmade]
          simp
      | ok =>
          obtain ⟨attempts, result, ⟨s', h'⟩, -, hrun, hpursued⟩ := Retry.run_pursued s.policy
            Classifier.isClean_objectStorage voice (attempt name target)
            (s, HasJournal.log [s.announcement name] { h with files })
          obtain ⟨times, hfetched, hasked, -⟩ := ends_of_pursued hpursued
          refine ⟨times, ?_, hasked.trans ?_⟩
          · rw [download_of_made hmade, hrun]
            exact hfetched
          · unfold Ready
            rw [LazySigner.get_log]
            constructor
            · rintro ⟨-, hsigned⟩
              exact ⟨rfl, hsigned hunopened⟩
            · rintro ⟨-, hsigned⟩
              refine ⟨?_, fun _ => hsigned⟩
              unfold Breaker.enter
              rw [hclosed]
              nofun

end ObjectStorage

end RemoteModel
