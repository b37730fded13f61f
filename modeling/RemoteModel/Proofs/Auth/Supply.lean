import RemoteModel.Auth.LazySigner
import RemoteModel.Proofs.Files.Stored

/-!
How signers are had. What a signer is built from are the files and what the key service will answer; where
it cannot be built, an ordinary error is told as one of the key.
-/

namespace RemoteModel

theorem Host.buildSigner_eq (plan : SignerPlan) (h : Host) :
    (h.buildSigner plan).1 = h.signers.head?.getD (.ok ⟨.null, "signed"⟩) := by
  unfold buildSigner
  dsimp only
  cases h.signers <;> rfl

theorem SignerSource.supply_eq (source : SignerSource) {h h' : Host} (hfiles : h'.files = h.files)
    (hsigners : h'.signers = h.signers) : (source.supply h').1 = (source.supply h).1 := by
  have hbuild (plan : SignerPlan) : (h'.buildSigner plan).1 = (h.buildSigner plan).1 := by
    rw [Host.buildSigner_eq, Host.buildSigner_eq, hsigners]
  unfold supply
  rw [hfiles]
  cases source with
  | custom => exact hbuild _
  | resource => exact hbuild _
  | machine => exact hbuild _
  | user d =>
      dsimp only
      cases readKey d.pemfilePath h.files with
      | error f => rfl
      | ok key =>
          have hsame := hbuild (.user d key)
          dsimp only
          generalize h.buildSigner (.user d key) = built at hsame ⊢
          generalize h'.buildSigner (.user d key) = built' at hsame ⊢
          obtain ⟨result, k⟩ := built
          obtain ⟨result', k'⟩ := built'
          obtain rfl : result' = result := hsame
          cases result' <;> rfl

theorem SignerSource.exception_of_readKey {file : Json} {t : Tree} {f : Failure}
    (h : readKey file t = .error f) : f.isA (.basic .exception) = true := by
  unfold readKey at h
  split at h
  next name =>
    split at h
    next => cases h
    next g hread =>
      split at h
      next =>
        cases h
        rfl
      next =>
        cases h
        exact Files.exception_of_readText hread
  next =>
    cases h
    rfl

/-- A signer that is supplied by ordinary means fails with an ordinary error. -/
theorem SignerSource.exception_of_supply {source : SignerSource} {h : Host} {f : Failure}
    (hsigners : ∀ f, .error f ∈ h.signers → f.isA (.basic .exception) = true)
    (hfails : (source.supply h).1 = .error f) : f.isA (.basic .exception) = true := by
  have hbuild (plan : SignerPlan) (g : Failure) (hg : (h.buildSigner plan).1 = .error g) :
      g.isA (.basic .exception) = true := by
    rw [Host.buildSigner_eq] at hg
    cases hscript : h.signers with
    | nil =>
        rw [hscript] at hg
        cases hg
    | cons result rest =>
        rw [hscript] at hg hsigners
        obtain rfl : result = .error g := hg
        exact hsigners g List.mem_cons_self
  unfold supply at hfails
  cases source with
  | custom => exact hbuild _ f hfails
  | resource => exact hbuild _ f hfails
  | machine => exact hbuild _ f hfails
  | user d =>
      dsimp only at hfails
      split at hfails
      next g hkey =>
        cases hfails
        exact exception_of_readKey hkey
      next key _ =>
        split at hfails
        next => cases hfails
        next g h' hbuilt =>
          have hordinary := hbuild (.user d key) g (by rw [hbuilt])
          rw [if_pos hordinary] at hfails
          cases hfails
          rfl

namespace LazySigner

theorem get_eq (s : LazySigner) (h : Host) : (s.get h).1 =
    match s.signer with
    | some signer => .ok signer
    | none => (s.source.supply h).1.mapError s.blamed := by
  unfold get
  cases s.signer with
  | some signer => rfl
  | none =>
      dsimp only
      obtain ⟨result, h'⟩ := s.source.supply h
      cases result <;> rfl

theorem blamed_cases (s : LazySigner) (f : Failure) :
    (s.blamed f).isA (.own .keyLoad) = true ∨ s.blamed f = f ∧ f.isA (.basic .exception) = false := by
  unfold blamed
  split
  next hkey => exact .inl hkey
  next =>
    split
    next => exact .inl rfl
    next hstrange => exact .inr ⟨rfl, Bool.not_eq_true _ ▸ hstrange⟩

theorem error_of_get {s : LazySigner} {h : Host} {f : Failure} (hfails : (s.get h).1 = .error f) :
    ∃ g, (s.source.supply h).1 = .error g ∧ f = s.blamed g := by
  rw [get_eq] at hfails
  split at hfails
  next => cases hfails
  next =>
    generalize (s.source.supply h).1 = result at hfails ⊢
    cases result with
    | ok => cases hfails
    | error g =>
        cases hfails
        exact ⟨g, rfl, rfl⟩

/-- What a signer is built from are the files and what the key service will answer. -/
theorem get_congr (s : LazySigner) {h h' : Host} (hfiles : h'.files = h.files)
    (hsigners : h'.signers = h.signers) : (s.get h').1 = (s.get h).1 := by
  rw [get_eq, get_eq, s.source.supply_eq hfiles hsigners]

theorem get_log (s : LazySigner) (records : List LogRecord) (h : Host) :
    (s.get (HasJournal.log records h)).1 = (s.get h).1 :=
  s.get_congr rfl rfl

end LazySigner

end RemoteModel
