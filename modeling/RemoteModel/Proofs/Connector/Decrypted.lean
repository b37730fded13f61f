import RemoteModel.Proofs.Auth.Resolution
import RemoteModel.Proofs.Calls.Equipped

/-!
Descriptors with the credential in plain form. What signs the calls of a connector is found in the same way
among the stored values, when the connector is loaded, and among the plain ones, when it is used: a parameter
with a value stands as it is, and whatever no parameter has is the plain value of the credential.
-/

namespace RemoteModel

namespace Connector

variable {doc : Json} {c : Connector} {decrypt other : Text → Text} {f : AuthField}

/-- A decryptor that gives a text for each text. -/
def always (decrypt : Text → Text) : Decryptor := fun t => .ok (decrypt t)

def opened (decrypt : Text → Text) (es : Entries (Option Text)) : Entries Text :=
  es.filterMap fun e => e.2.map fun t => (e.1, decrypt t)

theorem decryptAll_always (decrypt : Text → Text) (es : Entries (Option Text)) :
    decryptAll (always decrypt) es = .ok (opened decrypt es) := by
  induction es with
  | nil => rfl
  | cons e es ih =>
      obtain ⟨name, value⟩ := e
      cases value with
      | none => exact ih
      | some t =>
          rw [decryptAll, ih]
          rfl

theorem names_opened (decrypt : Text → Text) (es : Entries (Option Text)) :
    (opened decrypt es).names ⊆ es.names := by
  intro name hname
  simp only [opened, Entries.names, List.mem_map, List.mem_filterMap, Option.map_eq_some_iff] at hname ⊢
  obtain ⟨_, ⟨e, he, t, -, rfl⟩, rfl⟩ := hname
  exact ⟨e, he, rfl⟩

theorem get?_opened {es : Entries (Option Text)} (hnames : es.names.Nodup) (name : Text) :
    (opened decrypt es).get? name = (es.get? name).join.map decrypt := by
  induction es with
  | nil => rfl
  | cons e es ih =>
      obtain ⟨n, value⟩ := e
      obtain ⟨hnew, hrest⟩ := List.nodup_cons.mp hnames
      have hih := ih hrest
      rw [Entries.get?_cons]
      cases value with
      | none =>
          -- no later entry has the name, so the one that is dropped leaves nothing
          change (opened decrypt es).get? name = _
          split
          next hname =>
            cases hget : (opened decrypt es).get? name with
            | none => rfl
            | some t =>
                have hmem := List.mem_map_of_mem (f := Prod.fst) (Entries.mem_of_get? hget)
                exact absurd (names_opened decrypt es hmem) (hname ▸ hnew)
          next => exact hih
      | some t =>
          change Entries.get? ((n, decrypt t) :: opened decrypt es) name = _
          rw [Entries.get?_cons]
          split
          next => rfl
          next => exact hih

/-- A text as the value of a field; the empty one is none. -/
def valueOf (t : Text) : Option Json := if t = [] then none else some (.str t)

theorem given_texts (es : Entries (Option Text)) (f : AuthField) :
    AuthField.given (es.mapValues Json.ofText?) f = (es.get? f.name).join.bind valueOf := by
  unfold AuthField.given valueOf
  rw [Entries.get?_mapValues]
  cases es.get? f.name with
  | none => rfl
  | some value =>
      cases value with
      | none => rfl
      | some t => by_cases hempty : t = [] <;> simp [Json.ofText?, hempty]

/-- The stored value of a field. -/
def stored (c : Connector) (f : AuthField) : Option Text := (c.credential.get? f.name).join

/-- What is found for a field when the credential is decrypted. -/
def found (c : Connector) (decrypt : Text → Text) (f : AuthField) : Option Json :=
  (AuthField.given c.jsonParameters f).or (((c.stored f).map decrypt).bind valueOf)

theorem resolved_stored (c : Connector) :
    AuthField.resolved c.jsonParameters c.jsonCredential = c.found id := by
  funext f
  unfold AuthField.resolved found jsonCredential stored
  rw [given_texts, Option.map_id_fun, id]

theorem resolved_opened (hnames : c.credential.names.Nodup) (decrypt : Text → Text) :
    AuthField.resolved c.jsonParameters ((opened decrypt c.credential).mapValues .str) =
      c.found decrypt := by
  funext f
  have htexts : (opened decrypt c.credential).mapValues Json.str =
      ((opened decrypt c.credential).mapValues some).mapValues Json.ofText? := by
    unfold Entries.mapValues
    rw [List.map_map]
    rfl
  unfold AuthField.resolved found stored
  rw [htexts, given_texts, Entries.get?_mapValues, get?_opened hnames]
  cases ((c.credential.get? f.name).join.map decrypt) <;> rfl

theorem found_eq_some {v : Json} : c.found decrypt f = some v ↔
    AuthField.given c.jsonParameters f = some v ∨ AuthField.given c.jsonParameters f = none ∧
      ∃ t, c.stored f = some t ∧ decrypt t ≠ [] ∧ v = .str (decrypt t) := by
  unfold found valueOf
  rw [Option.or_eq_some_iff]
  simp only [Option.bind_eq_some_iff, Option.map_eq_some_iff, exists_exists_and_eq_and]
  refine or_congr_right (and_congr_right fun _ => exists_congr fun t => and_congr_right fun _ => ?_)
  by_cases hempty : decrypt t = []
  · simp [hempty]
  · simp [hempty, eq_comm]

theorem found_filled {v : Json} (h : c.found decrypt f = some v) : v ≠ .null ∧ v ≠ .str [] := by
  rcases found_eq_some.mp h with hgiven | ⟨-, t, -, hfilled, rfl⟩
  · exact (AuthField.given_eq_some.mp hgiven).2
  · exact ⟨nofun, fun hempty => hfilled (Json.str.inj hempty)⟩

/-- A value that no parameter goes before is looked at in plain form only. -/
theorem found_congr (hsame : ∀ f t, AuthField.given c.jsonParameters f = none → c.stored f = some t →
    decrypt t = other t) : c.found decrypt = c.found other := by
  funext f
  unfold found
  cases hgiven : AuthField.given c.jsonParameters f with
  | some v => rfl
  | none =>
      cases hstored : c.stored f with
      | none => rfl
      | some t => simp only [Option.map_some, hsame f t hgiven hstored]

theorem authDescriptor_always {d : AuthDescriptor} (hauth : c.auth = some d)
    (hnames : c.credential.names.Nodup) (decrypt : Text → Text) :
    c.authDescriptor (some (always decrypt)) =
      AuthDescriptor.ofSettings (some (AuthField.table (c.found decrypt))) := by
  unfold authDescriptor plainCredential
  rw [hauth]
  dsimp only
  rw [decryptAll_always]
  simp only [bind, Except.bind]
  rw [AuthField.resolveSettings_eq, resolved_opened hnames]

/-- The descriptor of a connector that was loaded. Decrypted to what is stored, it is the one that loading
found. Otherwise what is found for the fields decides about it: a value among the parameters stands as it is,
any other field has the plain value of the credential, and the stored values that no parameter goes before
are all that is looked at in plain form. A field that is needed and comes out empty is missing. Like any
table the credential has each name once. -/
theorem authDescriptor_decrypted (hload : ofJson doc = .ok c) (hoci : c.protocol.isOci = true)
    (hnames : c.credential.names.Nodup) :
    (∃ d, c.auth = some d ∧ c.authDescriptor (some (always id)) = .ok d) ∧
      ∀ decrypt : Text → Text,
        let found := c.found decrypt
        let result := c.authDescriptor (some (always decrypt))
        result = AuthDescriptor.ofSettings (some (AuthField.table found)) ∧
          AuthDescriptor.Reading found result ∧
          (∀ f v, AuthField.given c.jsonParameters f = some v → found f = some v) ∧
          (∀ f, AuthField.given c.jsonParameters f = none → ∀ v, found f = some v ↔
            ∃ t, c.credential.get? f.name = some (some t) ∧ decrypt t ≠ [] ∧ v = .str (decrypt t)) ∧
          (∀ other : Text → Text,
            (∀ f t, AuthField.given c.jsonParameters f = none →
              c.credential.get? f.name = some (some t) → decrypt t = other t) →
            c.authDescriptor (some (always other)) = result) ∧
          (∀ f t, AuthField.given c.jsonParameters f = none →
            c.credential.get? f.name = some (some t) → decrypt t = [] → AuthDescriptor.Needs found f →
            ∃ g, AuthDescriptor.Misses found g ∧ result = .error (.authFieldMissing g) ∧
              ((∀ g, AuthDescriptor.Needs found g → found g = none → g = f) → g = f)) ∧
          ∀ d, result = .ok d → ∀ f, d.field f ≠ .str [] := by
  obtain ⟨d, hauth, hread⟩ := descriptor_of_loaded hoci (read_of_ofJson hload).auth
  refine ⟨⟨d, hauth, ?_⟩, fun decrypt => ?_⟩
  · rw [authDescriptor_always hauth hnames, ← resolved_stored, ← AuthField.resolveSettings_eq]
    exact hread
  · intro found result
    have hresult : result = AuthDescriptor.ofSettings (some (AuthField.table found)) :=
      authDescriptor_always hauth hnames decrypt
    have hreading : AuthDescriptor.Reading found result := by
      rw [hresult]
      exact AuthDescriptor.table_reading fun _ _ => found_filled
    have hplain (f : AuthField) (hfree : AuthField.given c.jsonParameters f = none) (v : Json) :
        found f = some v ↔
          ∃ t, c.credential.get? f.name = some (some t) ∧ decrypt t ≠ [] ∧ v = .str (decrypt t) := by
      refine found_eq_some.trans ?_
      simp [hfree, stored, Option.join_eq_some_iff]
    refine ⟨hresult, hreading, fun f v hgiven => found_eq_some.mpr (.inl hgiven), hplain, ?_, ?_, ?_⟩
    · intro other hsame
      have hfound : c.found other = found :=
        (found_congr fun f t hfree hstored => hsame f t hfree (Option.join_eq_some_iff.mp hstored)).symm
      rw [authDescriptor_always hauth hnames, hfound, hresult]
    · intro f t hfree hstored hempty hneeds
      have hnone : found f = none := by
        refine Option.eq_none_iff_forall_ne_some.mpr fun v hv => ?_
        obtain ⟨t', hstored', hfilled, -⟩ := (hplain f hfree v).mp hv
        cases hstored.symm.trans hstored'
        exact hfilled hempty
      obtain ⟨g, hmisses, herror⟩ := hreading.misses hneeds hnone
      exact ⟨g, hmisses, herror, fun honly => honly g hmisses.needed hmisses.missing⟩
    · intro d hd
      rw [hd] at hreading
      exact hreading.field_filled fun _ _ => found_filled

theorem divided_loads : ofJson Executor.dividedDocument = .ok Executor.divided := by decide +kernel

/-- A region that only the credential has, and that is empty in plain form. -/
theorem divided_decrypted :
    ofJson Executor.dividedDocument = .ok Executor.divided ∧ Executor.divided.protocol.isOci = true ∧
      Executor.divided.credential.names.Nodup ∧
      (∃ d, Executor.divided.auth = some d ∧ Executor.divided.authDescriptor (some (always id)) = .ok d) ∧
      Executor.divided.authDescriptor (some (always fun t => if t = "r" then [] else t)) =
        .error (.authFieldMissing .region) := by
  have hnames : Executor.divided.credential.names.Nodup := by decide
  obtain ⟨hloaded, hdecrypted⟩ := authDescriptor_decrypted divided_loads rfl hnames
  obtain ⟨_, _, _, _, _, hempty, _⟩ := hdecrypted fun t => if t = "r" then [] else t
  have htype : AuthDescriptor.Names (Executor.divided.found fun t => if t = "r" then [] else t)
      .userPrincipal := ⟨.str " user_principal", by decide, by decide⟩
  obtain ⟨g, _, herror, hregion⟩ :=
    hempty .region "r" (by decide) (by decide) (by decide) (.inr ⟨by decide, htype⟩)
  refine ⟨divided_loads, rfl, hnames, hloaded, ?_⟩
  obtain rfl : g = .region := hregion fun g _ hnone => by
    cases g <;> first | rfl | exact absurd hnone (by decide)
  exact herror

end Connector

end RemoteModel
