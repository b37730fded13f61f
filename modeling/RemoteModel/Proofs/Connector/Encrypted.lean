import RemoteModel.Proofs.Connector.Decrypted

/-!
Connectors whose credential is stored encrypted. Loading reads the stored values: the fields of a user have
to be there and nothing more, but the type has to be spelt out, so it has to stand among the parameters or to
be stored in plain form.
-/

namespace RemoteModel.Connector

variable {doc : Json} {c : Connector} {decrypt : Text → Text} {d : AuthDescriptor}

/-- Documents that read as a connector, whatever comes of its descriptor. -/
structure Drafted (doc : Json) (c : Connector) : Prop where
  name : doc.field "name" = .ok c.name
  named : c.name.isVacant = false
  actions : ∃ v items, doc.field "actions" = .ok v ∧ itemsOf v = .ok items ∧
    items.mapM Action.ofJson = .ok c.actions
  protocol : ∃ v, doc.field "protocol" = .ok v ∧ Protocol.ofJson v = .ok c.protocol
  parameters : ∃ v, doc.field "parameters" = .ok v ∧ v.textual = .ok c.parameters
  credential : ∃ v, doc.field "credential" = .ok v ∧ v.textual = .ok c.credential
  roles : ∃ v, doc.field "backend_roles" = .ok v ∧ itemsOf v = .ok c.backendRoles
  description : doc.field "description" = .ok c.description
  version : doc.field "version" = .ok c.version
  accessMode : doc.field "access_mode" = .ok c.accessMode
  owner : doc.field "owner" = .ok c.owner

theorem Drafted.ofJson_eq (h : Drafted doc c) : ofJson doc =
    (authorize c.protocol c.parameters c.credential).map fun auth => { c with auth } := by
  obtain ⟨_, _, hactions, hitems, hread⟩ := h.actions
  obtain ⟨_, hprotocol, hprotocol'⟩ := h.protocol
  obtain ⟨_, hparameters, hparameters'⟩ := h.parameters
  obtain ⟨_, hcredential, hcredential'⟩ := h.credential
  obtain ⟨_, hroles, hroles'⟩ := h.roles
  unfold ofJson
  rw [h.name, hactions, hprotocol, hparameters, hcredential, hroles, h.description, h.version, h.accessMode,
    h.owner]
  simp only [bind, Except.bind, pure, Except.pure, h.named, Bool.false_eq_true, if_false, hitems, hread,
    hprotocol', hparameters', hcredential', hroles']
  cases authorize c.protocol c.parameters c.credential <;> rfl

theorem authorize_oci (hoci : c.protocol.isOci = true) :
    authorize c.protocol c.parameters c.credential =
      (AuthDescriptor.ofSettings (some (AuthField.table (c.found id)))).map some := by
  rw [← resolved_stored, ← AuthField.resolveSettings_eq]
  unfold authorize jsonParameters jsonCredential
  split
  next h => rw [h] at hoci; cases hoci
  next h => rw [h] at hoci; cases hoci
  next => rfl
  next => rfl

/-- What is found in plain form is stored, as long as nothing comes of an empty value. -/
theorem found_stored {f : AuthField} (hempty : c.stored f = some [] → decrypt [] = [])
    (hfound : (c.found decrypt f).isSome = true) : (c.found id f).isSome = true := by
  obtain ⟨v, hv⟩ := Option.isSome_iff_exists.mp hfound
  rcases found_eq_some.mp hv with hgiven | ⟨hfree, t, hstored, hfilled, -⟩
  · rw [found_eq_some.mpr (.inl hgiven)]
    rfl
  · have hfilled' : id t ≠ [] := by
      rintro rfl
      exact hfilled (hempty hstored)
    rw [found_eq_some.mpr (.inr ⟨hfree, t, hstored, hfilled', rfl⟩)]
    rfl

/-- A connector whose parameters and plain credential make a valid descriptor. Once it is loaded it has that
descriptor. It loads exactly if the values that are stored can be read as one: always if a parameter has the
type, but not if the type is stored in a form that spells out none. -/
theorem loaded_of_opened (hdraft : Drafted doc c) (hoci : c.protocol.isOci = true)
    (hnames : c.credential.names.Nodup)
    (hvalid : AuthDescriptor.ofSettings (some (resolveSettings c.jsonParameters
      ((opened decrypt c.credential).mapValues .str))) = .ok d) :
    (∀ c', ofJson doc = .ok c' → c'.authDescriptor (some (always decrypt)) = .ok d) ∧
      ((∃ c', ofJson doc = .ok c') ↔ AuthDescriptor.Readable (c.found id)) ∧
      (AuthField.given c.jsonParameters .authType ≠ none →
        (∀ f, c.stored f = some [] → decrypt [] = []) → ∃ c', ofJson doc = .ok c') ∧
      ∀ t, AuthField.given c.jsonParameters .authType = none → c.stored .authType = some t → t ≠ [] →
        (∀ type : AuthType, t.trim.upper ≠ type.name) → ofJson doc = .error .authTypeUnknown := by
  have hread := hdraft.ofJson_eq
  rw [authorize_oci hoci] at hread
  have hstored : AuthDescriptor.Reading (c.found id) _ :=
    AuthDescriptor.table_reading fun _ _ => found_filled
  have hopened : AuthDescriptor.Reading (c.found decrypt) _ :=
    AuthDescriptor.table_reading fun _ _ => found_filled
  rw [AuthField.resolveSettings_eq, resolved_opened hnames] at hvalid
  rw [hvalid] at hopened
  generalize AuthDescriptor.ofSettings (some (AuthField.table (c.found id))) = result at hread hstored
  have hloads : (∃ c', ofJson doc = .ok c') ↔ AuthDescriptor.Readable (c.found id) := by
    rw [← hstored.ok_iff, hread]
    cases result <;> simp [Except.map]
  refine ⟨fun c' hc' => ?_, hloads, fun htype hempty => hloads.mpr ?_, fun t hfree hthere hfilled hother => ?_⟩
  · rw [hread] at hc'
    cases result with
    | error => cases hc'
    | ok d' =>
        cases hc'
        exact (authDescriptor_always (c := { c with auth := some d' }) rfl hnames decrypt).trans hvalid
  · obtain ⟨v, hgiven⟩ := Option.ne_none_iff_exists'.mp htype
    obtain ⟨type, ⟨w, hw, hname⟩, hfields⟩ := hopened.ok_iff.mp ⟨d, rfl⟩
    -- a value among the parameters is the same for both
    have hsame : c.found id .authType = some w := by
      rw [found_eq_some.mpr (.inl hgiven)] at hw ⊢
      exact hw
    exact ⟨type, ⟨w, hsame, hname⟩, fun huser f hf => found_stored (hempty f) (hfields huser f hf)⟩
  · have hfound : c.found id .authType = some (.str t) :=
      found_eq_some.mpr (.inr ⟨hfree, t, hthere, hfilled, rfl⟩)
    rw [hread, hstored.eq_unknown hfound hother]
    rfl

/-- The type is a parameter, and every value of the credential is stored backwards. -/
theorem divided_loaded :
    Drafted Executor.dividedDocument Executor.divided ∧
      AuthDescriptor.ofSettings (some (resolveSettings Executor.divided.jsonParameters
        ((opened List.reverse Executor.divided.credential).mapValues .str))) =
          .ok ⟨.userPrincipal, .str "t", .str "u", .str "r", .str "f", .str "mep.k"⟩ ∧
      ∃ c', ofJson Executor.dividedDocument = .ok c' ∧ c'.authDescriptor (some (always List.reverse)) =
        .ok ⟨.userPrincipal, .str "t", .str "u", .str "r", .str "f", .str "mep.k"⟩ := by
  have hprotocol : Executor.dividedDocument.field "protocol" = .ok (.str "oci_sigv1") := by decide
  have hdraft : Drafted Executor.dividedDocument Executor.divided :=
    { read_of_ofJson divided_loads with protocol := ⟨_, hprotocol, by decide⟩ }
  have hvalid : AuthDescriptor.ofSettings (some (resolveSettings Executor.divided.jsonParameters
      ((opened List.reverse Executor.divided.credential).mapValues .str))) =
        .ok ⟨.userPrincipal, .str "t", .str "u", .str "r", .str "f", .str "mep.k"⟩ := by decide
  obtain ⟨hsame, _, haccepted, _⟩ := loaded_of_opened hdraft rfl (by decide) hvalid
  obtain ⟨c', hc'⟩ := haccepted (by decide) fun _ _ => rfl
  exact ⟨hdraft, hvalid, c', hc', hsame c' hc'⟩

def sealedDocument : Json :=
  .obj [("name", .str "c"), ("protocol", .str "oci_sigv1"),
    ("credential", .obj [("auth_type", .str "LAPICNIRP_ECRUOSER")])]

def sealedConnector : Connector where
  name := .str "c"
  protocol := .ociSigV1
  description := .null
  version := .null
  parameters := []
  credential := [("auth_type", some "LAPICNIRP_ECRUOSER")]
  actions := []
  backendRoles := []
  accessMode := .null
  owner := .null
  auth := none

theorem sealedConnector_drafted : Drafted sealedDocument sealedConnector where
  name := by decide
  named := by decide
  actions := ⟨.null, [], by decide, rfl, rfl⟩
  protocol := ⟨.str "oci_sigv1", by decide, by decide⟩
  parameters := ⟨.null, by decide, rfl⟩
  credential := ⟨.obj [("auth_type", .str "LAPICNIRP_ECRUOSER")], by decide, by decide⟩
  roles := ⟨.null, by decide, rfl⟩
  description := by decide
  version := by decide
  accessMode := by decide
  owner := by decide

/-- An encrypted type is refused when the connector is loaded. -/
theorem sealed_type_refused : ¬ ∀ (doc : Json) (c : Connector) (decrypt : Text → Text) (d : AuthDescriptor),
    Drafted doc c → c.protocol.isOci = true → c.credential.names.Nodup →
      (∀ t, t ≠ [] → decrypt t ≠ []) →
      AuthDescriptor.ofSettings (some (resolveSettings c.jsonParameters
        ((opened decrypt c.credential).mapValues .str))) = .ok d →
      ∃ c', ofJson doc = .ok c' ∧ c'.authDescriptor (some (always decrypt)) = .ok d := by
  intro hloads
  obtain ⟨c', hc', -⟩ := hloads sealedDocument sealedConnector List.reverse
    (.plain .resourcePrincipal) sealedConnector_drafted rfl (by decide)
    (fun t ht => mt List.reverse_eq_nil_iff.mp ht) (by decide +kernel)
  have hrefused : ofJson sealedDocument = .error .authTypeUnknown := by decide +kernel
  cases hrefused.symm.trans hc'

end RemoteModel.Connector
