import Mathlib.Data.List.Basic
import RemoteModel.Connector.Basic
import RemoteModel.Proofs.Entries
import RemoteModel.Proofs.Results

/-!
Documents of connectors. A connector that was loaded is loaded again from its own document.
-/

namespace RemoteModel

@[simp]
theorem Text.ofString_inj {s t : String} : Text.ofString s = Text.ofString t ↔ s = t := by
  have hscalar : Function.Injective (List.map Rune.scalar) :=
    List.map_injective_iff.mpr fun _ _ => Rune.scalar.inj
  unfold Text.ofString
  rw [hscalar.eq_iff, String.toList_inj]

theorem mapM_map_ok {ε α β : Type} {f : β → Except ε α} {g : α → β} {as : List α}
    (h : ∀ a ∈ as, f (g a) = .ok a) : (as.map g).mapM f = .ok as := by
  induction as with
  | nil => rfl
  | cons a as ih =>
      rw [List.map_cons, List.mapM_cons, h a List.mem_cons_self,
        ih fun b hb => h b (List.mem_cons_of_mem _ hb)]
      rfl

theorem mem_of_mapM_ok {ε α β : Type} {f : α → Except ε β} {as : List α} {bs : List β}
    (h : as.mapM f = .ok bs) : ∀ b ∈ bs, ∃ a ∈ as, f a = .ok b := by
  induction as generalizing bs with
  | nil =>
      cases h
      nofun
  | cons a as ih =>
      rw [List.mapM_cons] at h
      obtain ⟨b, hb, h⟩ := ok_of_bind h
      obtain ⟨bs, hbs, h⟩ := ok_of_bind h
      cases h
      intro b' hb'
      rcases List.mem_cons.mp hb' with rfl | hb'
      · exact ⟨a, List.mem_cons_self, hb⟩
      · obtain ⟨a', ha', hread⟩ := ih hbs b' hb'
        exact ⟨a', List.mem_cons_of_mem _ ha', hread⟩

namespace Json

theorem field_obj (fields : Entries Json) (name : Text) :
    (Json.obj fields).field name = .ok ((fields.get? name).getD .null) := rfl

theorem shownText_ofText? (t : Option Text) :
    (if (ofText? t).isNull then none else some (ofText? t).shown) = t := by
  cases t <;> rfl

theorem textual_ofTexts (es : Entries (Option Text)) : (ofTexts es).textual = .ok es := by
  cases es with
  | nil => rfl
  | cons e es =>
      have hread (e : Text × Option Text) :
          (e.1, if (ofText? e.2).isNull then none else some (ofText? e.2).shown) = e :=
        Prod.ext rfl (shownText_ofText? e.2)
      change Except.ok (((e :: es).map _).map _) = _
      rw [List.map_map]
      exact congrArg Except.ok (List.map_id'' hread (e :: es))

end Json

namespace Action

/-- What an action has from its document. -/
structure Read (doc : Json) (a : Action) : Prop where
  method : ∃ v, doc.field "method" = .ok v ∧ v.isVacant = false ∧ a.method = v.shown
  url : ∃ v, doc.field "url" = .ok v ∧ v.isVacant = false ∧ a.url = v.shown
  headers : ∃ v hs, doc.field "headers" = .ok v ∧ v.textual = .ok hs ∧
    a.headers = if hs.isEmpty then none else some hs
  body : doc.field "request_body" = .ok a.body

theorem read_of_ofJson {doc : Json} {a : Action} (h : ofJson doc = .ok a) : Read doc a := by
  unfold ofJson at h
  obtain ⟨type, _, h⟩ := ok_of_bind h
  obtain ⟨_, h⟩ := ok_of_unless h
  obtain ⟨method, hmethod, h⟩ := ok_of_bind h
  obtain ⟨hmethod', h⟩ := ok_of_unless h
  obtain ⟨url, hurl, h⟩ := ok_of_bind h
  obtain ⟨hurl', h⟩ := ok_of_unless h
  obtain ⟨_, _, h⟩ := ok_of_bind h
  obtain ⟨headers, hheaders, h⟩ := ok_of_bind h
  obtain ⟨hs, hread, h⟩ := ok_of_bind h
  obtain ⟨body, hbody, h⟩ := ok_of_bind h
  cases h
  exact ⟨⟨method, hmethod, hmethod', rfl⟩, ⟨url, hurl, hurl', rfl⟩, ⟨headers, hs, hheaders, hread, rfl⟩,
    hbody⟩

/-- What loading makes of an action. -/
structure Loaded (a : Action) : Prop where
  method : a.method ≠ []
  url : a.url ≠ []
  headers : a.headers ≠ some []

theorem type_parse (t : ActionType) : ActionType.parse t.name = .ok t := by
  cases t <;> rfl

def headersField (a : Action) : Json := a.headers.elim .null Json.ofTexts

theorem headersField_read {a : Action} (h : a.headers ≠ some []) :
    ∃ hs, a.headersField.textual = .ok hs ∧ (if hs.isEmpty then none else some hs) = a.headers := by
  unfold headersField
  cases hheaders : a.headers with
  | none => exact ⟨[], rfl, rfl⟩
  | some hs =>
      refine ⟨hs, Json.textual_ofTexts hs, if_neg ?_⟩
      rw [List.isEmpty_iff]
      rintro rfl
      exact h hheaders

theorem fields_toJson (a : Action) :
    a.toJson.field "action_type" = .ok (.str a.type.name) ∧
      a.toJson.field "method" = .ok (.str a.method) ∧ a.toJson.field "url" = .ok (.str a.url) ∧
      a.toJson.field "headers" = .ok a.headersField ∧
      a.toJson.field "request_body" = .ok a.body := by
  unfold toJson headersField
  cases a.headers <;> cases a.body <;> simp [Json.field_obj, Json.isNull]

theorem ofJson_toJson {a : Action} (h : a.Loaded) : ofJson a.toJson = .ok a := by
  obtain ⟨htype, hmethod, hurl, hheaders, hbody⟩ := a.fields_toJson
  obtain ⟨hs, hread, hsame⟩ := headersField_read h.headers
  have hmethod' : (Json.str a.method).isVacant = false := List.isEmpty_eq_false_iff.mpr h.method
  have hurl' : (Json.str a.url).isVacant = false := List.isEmpty_eq_false_iff.mpr h.url
  unfold ofJson
  rw [htype, hmethod, hurl, hheaders, hbody]
  simp only [bind, Except.bind, pure, Except.pure, Json.isNull, hmethod', hurl', Bool.false_eq_true,
    if_false, Json.shown, type_parse, hread, hsame]

end Action

namespace Connector

theorem get?_optional (name : String) (v : Json) (n : Text) :
    (optional name v).get? n = if Text.ofString name = n ∧ v.isNull = false then some v else none := by
  unfold optional
  cases v.isNull <;> simp

theorem getD_of_isNull (v : Json) : (if v.isNull = false then some v else none).getD .null = v := by
  cases v <;> rfl

/-- What a connector has from its document. -/
structure Read (doc : Json) (c : Connector) : Prop where
  name : doc.field "name" = .ok c.name
  named : c.name.isVacant = false
  actions : ∃ v items, doc.field "actions" = .ok v ∧ itemsOf v = .ok items ∧
    items.mapM Action.ofJson = .ok c.actions
  parameters : ∃ v, doc.field "parameters" = .ok v ∧ v.textual = .ok c.parameters
  credential : ∃ v, doc.field "credential" = .ok v ∧ v.textual = .ok c.credential
  roles : ∃ v, doc.field "backend_roles" = .ok v ∧ itemsOf v = .ok c.backendRoles
  auth : authorize c.protocol c.parameters c.credential = .ok c.auth
  description : doc.field "description" = .ok c.description
  version : doc.field "version" = .ok c.version
  accessMode : doc.field "access_mode" = .ok c.accessMode
  owner : doc.field "owner" = .ok c.owner

theorem read_of_ofJson {doc : Json} {c : Connector} (h : ofJson doc = .ok c) : Read doc c := by
  unfold ofJson at h
  obtain ⟨name, hname, h⟩ := ok_of_bind h
  obtain ⟨hnamed, h⟩ := ok_of_unless h
  obtain ⟨actions, hactions, h⟩ := ok_of_bind h
  obtain ⟨items, hitems, h⟩ := ok_of_bind h
  obtain ⟨read, hread, h⟩ := ok_of_bind h
  obtain ⟨protocol, _, h⟩ := ok_of_bind h
  obtain ⟨_, _, h⟩ := ok_of_bind h
  obtain ⟨parameters, hparameters, h⟩ := ok_of_bind h
  obtain ⟨_, hparameters', h⟩ := ok_of_bind h
  obtain ⟨credential, hcredential, h⟩ := ok_of_bind h
  obtain ⟨_, hcredential', h⟩ := ok_of_bind h
  obtain ⟨roles, hroles, h⟩ := ok_of_bind h
  obtain ⟨_, hroles', h⟩ := ok_of_bind h
  obtain ⟨_, hauth, h⟩ := ok_of_bind h
  obtain ⟨_, hdescription, h⟩ := ok_of_bind h
  obtain ⟨_, hversion, h⟩ := ok_of_bind h
  obtain ⟨_, hmode, h⟩ := ok_of_bind h
  obtain ⟨_, howner, h⟩ := ok_of_bind h
  cases h
  exact ⟨hname, hnamed, ⟨actions, items, hactions, hitems, hread⟩, ⟨parameters, hparameters,
    hparameters'⟩, ⟨credential, hcredential, hcredential'⟩, ⟨roles, hroles, hroles'⟩, hauth,
    hdescription, hversion, hmode, howner⟩

/-- What loading makes of a connector. -/
structure Loaded (c : Connector) : Prop where
  name : c.name.isVacant = false
  actions : ∀ a ∈ c.actions, a.Loaded
  auth : authorize c.protocol c.parameters c.credential = .ok c.auth

theorem itemsOf_arr (items : List Json) : itemsOf (.arr items) = .ok items := by
  cases items <;> rfl

theorem protocol_ofJson (p : Protocol) : Protocol.ofJson (.str p.name) = .ok p := by
  cases p <;> rfl

def rolesEntry (c : Connector) : Entries Json :=
  if c.backendRoles.isEmpty then [] else [(Text.ofString "backend_roles", .arr c.backendRoles)]

theorem get?_rolesEntry (c : Connector) (name : Text) :
    c.rolesEntry.get? name = if Text.ofString "backend_roles" = name ∧ c.backendRoles.isEmpty = false
      then some (.arr c.backendRoles) else none := by
  unfold rolesEntry
  cases c.backendRoles.isEmpty <;> simp

theorem itemsOf_rolesEntry (c : Connector) :
    itemsOf ((c.rolesEntry.get? "backend_roles").getD .null) = .ok c.backendRoles := by
  rw [get?_rolesEntry]
  cases c.backendRoles <;> rfl

theorem toJson_field (c : Connector) (name : Text) : c.toJson.field name =
    .ok ((Entries.get? ([(Text.ofString "name", c.name),
        (Text.ofString "protocol", .str c.protocol.name)]
      ++ optional "description" c.description ++ optional "version" c.version
      ++ [(Text.ofString "parameters", .ofTexts c.parameters),
        (Text.ofString "credential", .ofTexts c.credential),
        (Text.ofString "actions", .arr (c.actions.map Action.toJson))]
      ++ c.rolesEntry ++ optional "access_mode" c.accessMode ++ optional "owner" c.owner) name).getD
        .null) := rfl

theorem fields_toJson (c : Connector) :
    c.toJson.field "name" = .ok c.name ∧ c.toJson.field "protocol" = .ok (.str c.protocol.name) ∧
      c.toJson.field "description" = .ok c.description ∧ c.toJson.field "version" = .ok c.version ∧
      c.toJson.field "parameters" = .ok (.ofTexts c.parameters) ∧
      c.toJson.field "credential" = .ok (.ofTexts c.credential) ∧
      c.toJson.field "actions" = .ok (.arr (c.actions.map Action.toJson)) ∧
      c.toJson.field "backend_roles" = .ok ((c.rolesEntry.get? "backend_roles").getD .null) ∧
      c.toJson.field "access_mode" = .ok c.accessMode ∧ c.toJson.field "owner" = .ok c.owner := by
  refine ⟨?_, ?_, ?_, ?_, ?_, ?_, ?_, ?_, ?_, ?_⟩ <;>
    simp [toJson_field, get?_optional, get?_rolesEntry, getD_of_isNull]

theorem ofJson_toJson {c : Connector} (h : c.Loaded) : ofJson c.toJson = .ok c := by
  obtain ⟨hname, hprotocol, hdescription, hversion, hparameters, hcredential, hactions, hroles, hmode,
    howner⟩ := c.fields_toJson
  have hread := mapM_map_ok fun a ha => Action.ofJson_toJson (h.actions a ha)
  unfold ofJson
  rw [hname, hprotocol, hdescription, hversion, hparameters, hcredential, hactions, hroles, hmode,
    howner]
  simp only [bind, Except.bind, pure, Except.pure, h.name, Bool.false_eq_true, if_false,
    itemsOf_arr, hread, protocol_ofJson, Json.textual_ofTexts, itemsOf_rolesEntry, h.auth]

end Connector

end RemoteModel
