import RemoteModel.Proofs.ObjectStorage.Attempts

/-!
Errors of downloads. Those of the service, of an exchange and of the system are told as failures of the
download and those of a signer as failures of the key; all others come out as they are. Of what the object
storage can cause that is a stream that breaks with an error of the wire.
-/

namespace RemoteModel

namespace ObjectStorage

open Host

variable {name : ObjectName} {target : Path}

/-- An error that is not told as the download's own or as one of the key comes out of the attempts as it
is, unless it is caught. -/
theorem error_of_blamed {s : ObjectStorage} {result : Except Retry.Defeat Unit} {f : Failure}
    (hexhausted : ∀ g, result = .error (.exhausted g) →
      Classifier.objectStorage.isRetriable g = true) (hunreported : ¬Reported f) :
    result.mapError s.blamed = .error f ↔
      f.kind.isCaught = false ∧ result.mapError Retry.Defeat.failure = .error f := by
  cases result with
  | ok => exact iff_of_false nofun fun h => nomatch h.2
  | error d =>
      cases d with
      | exhausted g =>
          refine iff_of_false ?_ ?_
          · rintro ⟨⟩
            exact hunreported (.inl rfl)
          · rintro ⟨huncaught, ⟨⟩⟩
            cases (isCaught_of_retriable (hexhausted g rfl)).symm.trans huncaught
      | final g =>
          have hblamed : s.blamed (.final g) = if g.kind.isCaught then .storageFailed g else g := rfl
          change Except.error (s.blamed (.final g)) = Except.error f ↔
            f.kind.isCaught = false ∧ Except.error g = Except.error f
          rw [hblamed]
          cases hcaught : g.kind.isCaught with
          | true =>
              refine iff_of_false ?_ ?_
              · rintro ⟨⟩
                exact hunreported (.inl rfl)
              · rintro ⟨huncaught, ⟨⟩⟩
                cases hcaught.symm.trans huncaught
          | false =>
              refine ⟨?_, fun h => h.2⟩
              rintro ⟨⟩
              exact ⟨hcaught, rfl⟩

/-- How an error comes out of a download that is told neither as a failure of the download nor of the
key. -/
inductive Escapes (s : ObjectStorage) (target : Path) (h h' : Host) (times : Nat) (f : Failure) :
    Prop
  | folders {files : Tree} : Files.makeFolders target.parent h.files = (.error f, files) →
      times = 0 → Escapes s target h h' times f
  | attempts {files : Tree} : Files.makeFolders target.parent h.files = (.ok (), files) →
      f.kind.isCaught = false → Cause s target { h with files } h' times f →
      Escapes s target h h' times f

theorem Escapes.stream {s : ObjectStorage} {h h' : Host} {times : Nat} {f : Failure}
    (hescapes : Escapes s target h h' times f) (hunreported : ¬Reported f)
    (hsigners : ∀ f, .error f ∈ h.signers → f.isA (.basic .exception) = true)
    (hanswers : ∀ i f, Delivery.nth h.deliveries i = .error f → f.kind.isCaught = true)
    (hfolders : (Files.makeFolders target.parent h.files).1 = .ok ())
    (htarget : Files.checkPath target = .ok ()) :
    ∃ i d, times = i + 1 ∧ Delivery.nth h.deliveries i = .ok d ∧ d.failure = some f ∧
      f.kind.isCaught = false ∧ Files.read h'.files target = .ok d.pieces.flatten := by
  cases hescapes with
  | folders hmade =>
      rw [hmade] at hfolders
      cases hfolders
  | @attempts files hmade huncaught hcause =>
      cases hcause with
      | signer _ _ hfails =>
          obtain ⟨g, hsupply, rfl⟩ := LazySigner.error_of_get hfails
          have hordinary := SignerSource.exception_of_supply (h := { h with files }) hsigners
            hsupply
          rcases s.signer.blamed_cases g with hkey | ⟨-, hstrange⟩
          · exact absurd (.inr hkey) hunreported
          · cases hordinary.symm.trans hstrange
      | answer hgiven => cases (hanswers _ _ hgiven).symm.trans huncaught
      | path _ hpath => cases htarget.symm.trans hpath
      | stream hgiven hbroken hread => exact ⟨_, _, rfl, hgiven, hbroken, huncaught, hread⟩

theorem download_untold (s : ObjectStorage) (name : ObjectName) (target : Path) (h : Host) :
    ∃ result s' h' times, s.download name target h = (result, s', h') ∧
      h'.fetched = h.fetched ++ List.replicate times name ∧
      ∀ f, ¬Reported f → (result = .error f ↔ Escapes s target h h' times f) := by
  cases hmade : Files.makeFolders target.parent h.files with
  | mk made files =>
      cases made with
      | error g =>
          refine ⟨.error g, s, { h with files }, 0, ?_, by simp, fun f _ => ⟨?_, ?_⟩⟩
          · unfold download
            rw [hmade]
          · rintro ⟨⟩
            exact .folders hmade rfl
          · rintro (⟨hmade', -⟩ | ⟨hmade', -, -⟩) <;> cases hmade.symm.trans hmade'
            rfl
      | ok =>
          have hdownload := @download_of_made name target s h files hmade
          obtain ⟨attempts, result, ⟨s', h'⟩, -, hrun, hpursued⟩ := Retry.run_pursued s.policy
            Classifier.isClean_objectStorage voice (attempt name target)
            (s, HasJournal.log [s.announcement name] { h with files })
          obtain ⟨times, hfetched, -, hcause⟩ := ends_of_pursued hpursued
          rw [hrun] at hdownload
          refine ⟨result.mapError s.blamed, s', h', times, hdownload, hfetched,
            fun f hunreported => ?_⟩
          have hexhausted (g : Failure) (hg : result = .error (.exhausted g)) :
              Classifier.objectStorage.isRetriable g = true :=
            Retry.retriable_of_exhausted _ _ _ _ (hrun.trans (by rw [hg]))
          rw [error_of_blamed hexhausted hunreported]
          constructor
          · rintro ⟨huncaught, hfails⟩
            exact .attempts hmade huncaught
              ((Cause.log_iff _).mp ((hcause f ⟨huncaught, hunreported⟩).mp hfails))
          · rintro (⟨hmade', -⟩ | ⟨hmade', huncaught, hf⟩) <;> cases hmade.symm.trans hmade'
            exact ⟨huncaught,
              (hcause f ⟨huncaught, hunreported⟩).mpr ((Cause.log_iff _).mpr hf)⟩

/-- What comes out of a download. Whatever is no failure of the download or of the key comes from folders
that cannot be made, or from an error that is caught neither as one of the service or of an exchange nor as
one of the system: of the signer, of the request, of the path, or of the stream. When signers fail with
ordinary errors, requests with errors that are caught, and the file can be named, the last case is left:
the stream of the last answer breaks, after what it gave has been written. -/
theorem download_escapes (s : ObjectStorage) (name : ObjectName) (target : Path) (h : Host) :
    ∃ result s' h' times, s.download name target h = (result, s', h') ∧
      h'.fetched = h.fetched ++ List.replicate times name ∧
      (∀ f, ¬Reported f → (result = .error f ↔ Escapes s target h h' times f)) ∧
      ((∀ f, .error f ∈ h.signers → f.isA (.basic .exception) = true) →
        (∀ i f, Delivery.nth h.deliveries i = .error f → f.kind.isCaught = true) →
        (Files.makeFolders target.parent h.files).1 = .ok () → Files.checkPath target = .ok () →
        ∀ f, ¬Reported f → (result = .error f ↔
          ∃ i d, times = i + 1 ∧ Delivery.nth h.deliveries i = .ok d ∧ d.failure = some f ∧
            f.kind.isCaught = false ∧ Files.read h'.files target = .ok d.pieces.flatten)) := by
  obtain ⟨result, s', h', times, hdownload, hfetched, hescapes⟩ := download_untold s name target h
  refine ⟨result, s', h', times, hdownload, hfetched, hescapes,
    fun hsigners hanswers hfolders htarget f hunreported => ?_⟩
  rw [hescapes f hunreported]
  constructor
  · exact fun hf => hf.stream hunreported hsigners hanswers hfolders htarget
  · rintro ⟨i, d, rfl, hgiven, hbroken, huncaught, hread⟩
    exact .attempts (Prod.ext hfolders rfl) huncaught (.stream hgiven hbroken hread)

/-- The stream breaks with an error of the wire after a chunk. -/
def brokenHost : Host :=
  { Host.start 0 with
    deliveries := [.ok ⟨[[1]], some (.reported (.wire .protocol) "broken")⟩] }

theorem broken_stream_escapes : ¬∀ (s : ObjectStorage) (name : ObjectName) (target : Path)
    (h : Host), (∀ f, .error f ∈ h.signers → f.isA (.basic .exception) = true) →
    (∀ i f, Delivery.nth h.deliveries i = .error f → f.kind.isCaught = true) →
    (∀ i d f, Delivery.nth h.deliveries i = .ok d → d.failure = some f →
      f.isA (.wire .base) = true) →
    (Files.makeFolders target.parent h.files).1 = .ok () → Files.checkPath target = .ok () →
    ∀ f, (s.download name target h).1 = .error f → Reported f := by
  intro hall
  have hreported := hall tornStorage tornName (Path.ofText "/x") brokenHost nofun
    (by rintro (_ | i) f ⟨⟩) (by rintro (_ | i) d f ⟨⟩ ⟨⟩; rfl) (by decide +kernel)
    (by decide +kernel) (.reported (.wire .protocol) "broken") (by decide +kernel)
  rcases hreported with h | h <;> cases h

end ObjectStorage

end RemoteModel
