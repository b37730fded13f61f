import RemoteModel.Auth.LazySigner
import RemoteModel.Proofs.Entries
import RemoteModel.Proofs.Results

/-!
Descriptors and the settings they are read from. The descriptor of a user principal holds a value for each
of its fields, so its own settings pass the check once more and it has a signer.
-/

namespace RemoteModel

theorem AuthType.parse_name (t : AuthType) : parse t.name = .ok t := by
  cases t <;> rfl

theorem hasSetting_congr {settings others : Entries Json} {f : AuthField}
    (h : settings.get? f.name = others.get? f.name) : hasSetting settings f = hasSetting others f := by
  unfold hasSetting
  rw [h]

theorem get?_of_hasSetting {settings : Entries Json} {f : AuthField}
    (h : hasSetting settings f = true) :
    settings.get? f.name = some ((settings.get? f.name).getD .null) := by
  unfold hasSetting at h
  split at h
  next => cases h
  next => cases h
  next => cases h
  next hvalue => rw [hvalue]; rfl

namespace AuthDescriptor

theorem get?_toSettings (d : AuthDescriptor) (f : AuthField) :
    d.toSettings.get? f.name = some (d.field f) := by
  cases f <;> rfl

theorem create_eq {d d' : AuthDescriptor} (h : create d = .ok d') : d' = d := by
  unfold create at h
  split at h
  all_goals
    split at h
    next => cases h
    next => exact (Except.ok.inj h).symm

/-- What a check that passed has seen. -/
theorem checkSettings_ok {settings : Entries Json} (h : checkSettings (some settings) = .ok ()) :
    hasSetting settings .authType = true ∧
      ∃ type, AuthType.parse ((settings.get? AuthField.authType.name).getD .null).shown = .ok type ∧
        (type = .userPrincipal → ∀ f ∈ AuthField.ofUser, hasSetting settings f = true) := by
  unfold checkSettings at h
  dsimp only at h
  split at h
  next => cases h
  next htype =>
    obtain ⟨type, hparse, h⟩ := ok_of_bind h
    refine ⟨by simpa using htype, type, hparse, ?_⟩
    rintro rfl f hf
    cases hmissing : AuthField.ofUser.find? fun f => !hasSetting settings f with
    | some field =>
        rw [hmissing] at h
        cases h
    | none => simpa using List.find?_eq_none.mp hmissing f hf

theorem checkSettings_of_user {settings : Entries Json} (htype : hasSetting settings .authType = true)
    (hparse : AuthType.parse ((settings.get? AuthField.authType.name).getD .null).shown =
      .ok .userPrincipal) (hfields : ∀ f ∈ AuthField.ofUser, hasSetting settings f = true) :
    checkSettings (some settings) = .ok () := by
  have hmissing : AuthField.ofUser.find? (fun f => !hasSetting settings f) = none :=
    List.find?_eq_none.mpr fun f hf => by rw [hfields f hf]; exact Bool.false_ne_true
  unfold checkSettings
  dsimp only
  rw [htype, hparse, hmissing]
  rfl

theorem fields_of_ofSettings {settings : Entries Json} {d : AuthDescriptor}
    (h : ofSettings (some settings) = .ok d) (huser : d.type = .userPrincipal) :
    ∀ f ∈ AuthField.ofUser, hasSetting settings f = true ∧
      settings.get? f.name = some (d.field f) := by
  unfold ofSettings at h
  obtain ⟨_, hcheck, h⟩ := ok_of_bind h
  obtain ⟨type, htype, h⟩ := ok_of_bind h
  obtain ⟨_, type', htype', hpresent⟩ := checkSettings_ok hcheck
  obtain rfl : type' = type := Except.ok.inj (htype'.symm.trans htype)
  cases type' with
  | resourcePrincipal =>
      rw [create_eq h] at huser
      cases huser
  | instancePrincipal =>
      rw [create_eq h] at huser
      cases huser
  | userPrincipal =>
      obtain rfl := create_eq h
      intro f hf
      have hthere := hpresent rfl f hf
      refine ⟨hthere, (get?_of_hasSetting hthere).trans ?_⟩
      cases f with
      | authType => exact absurd hf (by decide)
      | _ => rfl

/-- What was read from settings passes the check once more. -/
theorem check_of_ofSettings {settings : Entries Json} {d : AuthDescriptor}
    (h : ofSettings (some settings) = .ok d) (huser : d.type = .userPrincipal) :
    checkSettings (some d.toSettings) = .ok () := by
  have htype : (d.toSettings.get? AuthField.authType.name).getD .null = .str d.type.name := by
    rw [get?_toSettings]
    rfl
  refine checkSettings_of_user ?_ ?_ fun f hf => ?_
  · unfold hasSetting
    rw [get?_toSettings]
    unfold field
    rw [huser]
    rfl
  · rw [htype, huser]
    exact AuthType.parse_name .userPrincipal
  · obtain ⟨hthere, hvalue⟩ := fields_of_ofSettings h huser f hf
    rwa [hasSetting_congr ((d.get?_toSettings f).trans hvalue.symm)]

end AuthDescriptor

namespace LazySigner

/-- A signer of a descriptor that has not been built yet. -/
structure Waits (s : LazySigner) (d : AuthDescriptor) : Prop where
  ofDescriptor : ofDescriptor d = .ok s
  unbuilt : s.isBuilt = false

theorem waits_of_ofSettings {settings : Entries Json} {d : AuthDescriptor}
    (h : AuthDescriptor.ofSettings (some settings) = .ok d) : ∃ s, Waits s d := by
  cases htype : d.type with
  | resourcePrincipal => exact ⟨_, by unfold LazySigner.ofDescriptor; rw [htype], rfl⟩
  | instancePrincipal => exact ⟨_, by unfold LazySigner.ofDescriptor; rw [htype], rfl⟩
  | userPrincipal =>
      refine ⟨⟨"user principal", .user d, d.region, none⟩, ?_, rfl⟩
      unfold LazySigner.ofDescriptor
      rw [htype]
      dsimp only
      rw [AuthDescriptor.check_of_ofSettings h htype]
      rfl

end LazySigner

end RemoteModel
