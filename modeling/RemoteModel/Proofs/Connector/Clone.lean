import RemoteModel.Proofs.Connector.Document
import RemoteModel.Proofs.Json.RoundTrip
import RemoteModel.Proofs.Json.Shown

/-!
Clones of connectors. A connector that was loaded from a document of well-formed text is its own clone, as
long as the values that are kept as they are hold nothing but exact numbers that can be read.
-/

namespace RemoteModel

open Json

namespace Json

variable {p : Json → Prop} {v doc : Json}

theorem tidy_field (htidy : Everywhere Tidy doc) {name : Text} (hfield : doc.field name = .ok v) :
    Everywhere Tidy v := by
  cases doc with
  | obj fields =>
      rw [field_obj] at hfield
      cases hget : Entries.get? fields name with
      | none =>
          rw [hget] at hfield
          cases hfield
          exact .leaf rfl trivial
      | some w =>
          rw [hget] at hfield
          cases hfield
          exact htidy.field (Entries.mem_of_get? hget)
  | _ => cases hfield

theorem tidy_sublist {fields all : Entries Json} (hfields : fields.Sublist all)
    (hnames : ∀ name ∈ all.names, name.isWellFormed = true) (hdistinct : all.names.Nodup)
    (hvalues : ∀ f ∈ all, Everywhere Tidy f.2) : Everywhere Tidy (.obj fields) := by
  have hsub : List.Sublist (Entries.names fields) (Entries.names all) := hfields.map Prod.fst
  exact .obj ⟨fun name hname => hnames name (hsub.mem hname), hdistinct.sublist hsub⟩
    fun f hf => hvalues f (hfields.mem hf)

theorem exact_sublist {fields all : Entries Json} (hfields : fields.Sublist all)
    (hvalues : ∀ f ∈ all, Everywhere Exact f.2) : Everywhere Exact (.obj fields) :=
  .obj trivial fun f hf => hvalues f (hfields.mem hf)

theorem tidy_textual {es : Entries (Option Text)} (htidy : Everywhere Tidy v)
    (hread : v.textual = .ok es) : Everywhere Tidy (ofTexts es) := by
  unfold textual at hread
  split at hread
  next =>
    cases hread
    exact .obj ⟨nofun, .nil⟩ nofun
  next =>
    split at hread
    next fields _ =>
      cases hread
      have hnode : Tidy (.obj fields) := htidy.here
      refine .obj ?_ fun f hf => ?_
      · simp only [Tidy, Entries.names_mapValues]
        exact hnode
      · obtain ⟨e, he, rfl⟩ := List.mem_map.mp hf
        obtain ⟨field, hfield, rfl⟩ := List.mem_map.mp he
        dsimp only
        split
        next => exact .leaf rfl trivial
        next => exact .leaf rfl (isWellFormed_shown (htidy.field hfield))
    next => cases hread

theorem exact_ofTexts (es : Entries (Option Text)) : Everywhere Exact (ofTexts es) := by
  refine .obj trivial fun f hf => ?_
  obtain ⟨e, _, rfl⟩ := List.mem_map.mp hf
  cases e.2 <;> exact .leaf rfl trivial

theorem tidy_itemsOf {items : List Json} (htidy : Everywhere Tidy v)
    (hread : Connector.itemsOf v = .ok items) : ∀ w ∈ items, Everywhere Tidy w := by
  unfold Connector.itemsOf at hread
  split at hread
  next =>
    cases hread
    nofun
  next =>
    cases v with
    | arr =>
        cases hread
        exact htidy.items
    | str t =>
        cases hread
        refine List.forall_mem_map.mpr fun r hr => .leaf rfl ?_
        have hr := Text.isWellFormed_iff.mp htidy.here r hr
        simp [Tidy, hr]
    | obj fields =>
        cases hread
        exact List.forall_mem_map.mpr fun f hf =>
          .leaf rfl (htidy.here.1 f.1 (List.mem_map_of_mem hf))
    | _ => cases hread

end Json

namespace Action

/-- The fields of the document when none is left out. -/
def allFields (a : Action) : Entries Json :=
  [("action_type", .str a.type.name), ("method", .str a.method), ("url", .str a.url),
    ("headers", a.headersField), ("request_body", a.body)]

theorem toJson_sublist (a : Action) :
    ∃ fields, a.toJson = .obj fields ∧ fields.Sublist a.allFields := by
  refine ⟨_, rfl, ?_⟩
  change List.Sublist _ ([(Text.ofString "action_type", Json.str a.type.name),
    (Text.ofString "method", .str a.method), (Text.ofString "url", .str a.url)] ++
    [(Text.ofString "headers", a.headersField)] ++ [(Text.ofString "request_body", a.body)])
  refine ((List.Sublist.refl _).append ?_).append ?_
  · unfold headersField
    cases a.headers with
    | none => exact List.nil_sublist _
    | some hs => exact .refl _
  · split
    next => exact List.nil_sublist _
    next => exact .refl _

theorem allFields_names (a : Action) :
    (∀ name ∈ a.allFields.names, name.isWellFormed = true) ∧ a.allFields.names.Nodup := by
  simp [allFields, Entries.names, Text.isWellFormed_ofString]

theorem Read.loaded {doc : Json} {a : Action} (h : Read doc a) : a.Loaded := by
  obtain ⟨⟨method, _, hmethod, hshown⟩, ⟨url, _, hurl, hshown'⟩, ⟨_, hs, _, _, hheaders⟩, _⟩ := h
  refine ⟨?_, ?_, ?_⟩
  · rw [hshown]
    exact Json.shown_ne_nil hmethod
  · rw [hshown']
    exact Json.shown_ne_nil hurl
  · rw [hheaders]
    cases hs with
    | nil => nofun
    | cons => nofun

theorem Read.tidy {doc : Json} {a : Action} (h : Read doc a) (htidy : Everywhere Tidy doc) :
    Everywhere Tidy a.toJson := by
  obtain ⟨fields, hfields, hsub⟩ := a.toJson_sublist
  obtain ⟨hnames, hdistinct⟩ := a.allFields_names
  obtain ⟨⟨method, hmethod, _, hshown⟩, ⟨url, hurl, _, hshown'⟩, ⟨headers, hs, hheaders, hread, hkept⟩,
    hbody⟩ := h
  rw [hfields]
  refine tidy_sublist hsub hnames hdistinct ?_
  simp only [allFields, List.forall_mem_cons]
  refine ⟨.leaf rfl ?_, .leaf rfl ?_, .leaf rfl ?_, ?_, tidy_field htidy hbody, nofun⟩
  · cases a.type <;> exact Text.isWellFormed_ofString _
  · rw [hshown]
    exact isWellFormed_shown (tidy_field htidy hmethod)
  · rw [hshown']
    exact isWellFormed_shown (tidy_field htidy hurl)
  · unfold headersField
    rw [hkept]
    split
    next => exact .leaf rfl trivial
    next => exact tidy_textual (tidy_field htidy hheaders) hread

theorem exact_toJson {a : Action} (hbody : Everywhere Exact a.body) : Everywhere Exact a.toJson := by
  obtain ⟨fields, hfields, hsub⟩ := a.toJson_sublist
  rw [hfields]
  refine exact_sublist hsub ?_
  simp only [allFields, List.forall_mem_cons]
  refine ⟨.leaf rfl trivial, .leaf rfl trivial, .leaf rfl trivial, ?_, hbody, nofun⟩
  unfold headersField
  cases a.headers with
  | none => exact .leaf rfl trivial
  | some hs => exact exact_ofTexts hs

end Action

namespace Connector

/-- The values that a connector keeps as its document gives them. -/
def freeForm (c : Connector) : List Json :=
  [c.name, c.description, c.version, c.accessMode, c.owner] ++ c.backendRoles ++ c.actions.map Action.body

/-- The fields of the document when none is left out. -/
def allFields (c : Connector) : Entries Json :=
  [("name", c.name), ("protocol", .str c.protocol.name), ("description", c.description),
    ("version", c.version), ("parameters", .ofTexts c.parameters),
    ("credential", .ofTexts c.credential), ("actions", .arr (c.actions.map Action.toJson)),
    ("backend_roles", .arr c.backendRoles), ("access_mode", c.accessMode), ("owner", c.owner)]

theorem optional_sublist (name : String) (v : Json) :
    (optional name v).Sublist [(Text.ofString name, v)] := by
  unfold optional
  split
  next => exact List.nil_sublist _
  next => exact .refl _

theorem toJson_sublist (c : Connector) :
    ∃ fields, c.toJson = .obj fields ∧ fields.Sublist c.allFields := by
  refine ⟨_, rfl, ?_⟩
  -- the table is grouped as the document is: every group is whole or may be left out
  change List.Sublist _ ([(Text.ofString "name", c.name),
      (Text.ofString "protocol", .str c.protocol.name)]
    ++ [(Text.ofString "description", c.description)] ++ [(Text.ofString "version", c.version)]
    ++ [(Text.ofString "parameters", .ofTexts c.parameters),
      (Text.ofString "credential", .ofTexts c.credential),
      (Text.ofString "actions", .arr (c.actions.map Action.toJson))]
    ++ [(Text.ofString "backend_roles", .arr c.backendRoles)]
    ++ [(Text.ofString "access_mode", c.accessMode)] ++ [(Text.ofString "owner", c.owner)])
  have hroles : c.rolesEntry.Sublist [(Text.ofString "backend_roles", .arr c.backendRoles)] := by
    unfold rolesEntry
    split
    next => exact List.nil_sublist _
    next => exact .refl _
  exact ((((((List.Sublist.refl _).append (optional_sublist _ _)).append (optional_sublist _ _)).append
    (.refl _)).append hroles).append (optional_sublist _ _)).append (optional_sublist _ _)

theorem allFields_names (c : Connector) :
    (∀ name ∈ c.allFields.names, name.isWellFormed = true) ∧ c.allFields.names.Nodup := by
  simp [allFields, Entries.names, Text.isWellFormed_ofString]

theorem Read.loaded {doc : Json} {c : Connector} (h : Read doc c) : c.Loaded := by
  refine ⟨h.named, fun a ha => ?_, h.auth⟩
  obtain ⟨_, items, _, _, hread⟩ := h.actions
  obtain ⟨item, _, hitem⟩ := mem_of_mapM_ok hread a ha
  exact (Action.read_of_ofJson hitem).loaded

theorem Read.tidy {doc : Json} {c : Connector} (h : Read doc c) (htidy : Everywhere Tidy doc) :
    Everywhere Tidy c.toJson := by
  obtain ⟨fields, hfields, hsub⟩ := c.toJson_sublist
  obtain ⟨hnames, hdistinct⟩ := c.allFields_names
  obtain ⟨actions, items, hactions, hitems, hread⟩ := h.actions
  obtain ⟨parameters, hparameters, hparameters'⟩ := h.parameters
  obtain ⟨credential, hcredential, hcredential'⟩ := h.credential
  obtain ⟨roles, hroles, hroles'⟩ := h.roles
  rw [hfields]
  refine tidy_sublist hsub hnames hdistinct ?_
  simp only [allFields, List.forall_mem_cons]
  refine ⟨tidy_field htidy h.name, .leaf rfl ?_, tidy_field htidy h.description,
    tidy_field htidy h.version, tidy_textual (tidy_field htidy hparameters) hparameters',
    tidy_textual (tidy_field htidy hcredential) hcredential', .arr trivial ?_,
    .arr trivial (tidy_itemsOf (tidy_field htidy hroles) hroles'), tidy_field htidy h.accessMode,
    tidy_field htidy h.owner, nofun⟩
  · cases c.protocol <;> exact Text.isWellFormed_ofString _
  · refine List.forall_mem_map.mpr fun a ha => ?_
    obtain ⟨item, hitem, haction⟩ := mem_of_mapM_ok hread a ha
    exact (Action.read_of_ofJson haction).tidy (tidy_itemsOf (tidy_field htidy hactions) hitems item hitem)

theorem exact_toJson {c : Connector} (hexact : ∀ v ∈ c.freeForm, Everywhere Exact v) :
    Everywhere Exact c.toJson := by
  obtain ⟨fields, hfields, hsub⟩ := c.toJson_sublist
  simp only [freeForm, List.forall_mem_append, List.forall_mem_cons,
    List.forall_mem_map] at hexact
  obtain ⟨⟨⟨hname, hdescription, hversion, hmode, howner, _⟩, hroles⟩, hbodies⟩ := hexact
  rw [hfields]
  refine exact_sublist hsub ?_
  simp only [allFields, List.forall_mem_cons]
  exact ⟨hname, .leaf rfl trivial, hdescription, hversion, exact_ofTexts _, exact_ofTexts _,
    .arr trivial (List.forall_mem_map.mpr fun a ha => Action.exact_toJson (hbodies a ha)),
    .arr trivial hroles, hmode, howner, nofun⟩

/-- A clone is the same connector. -/
theorem clone_eq {doc : Json} {c : Connector} (hload : ofJson doc = .ok c)
    (htidy : Everywhere Tidy doc) (hexact : ∀ v ∈ c.freeForm, Everywhere Exact v) :
    c.clone = .ok c := by
  have hread := read_of_ofJson hload
  unfold clone parse render
  rw [Json.parse_render (hread.tidy htidy) (exact_toJson hexact)]
  exact ofJson_toJson hread.loaded

def sampleAction : Json :=
  .obj [("action_type", .str "predict"), ("method", .str "GET"), ("url", .str "http://x/"),
    ("headers", .obj [("a", .null)])]

def sampleDocument : Json :=
  .obj [("name", .str "c"), ("protocol", .str "http"), ("parameters", .obj [("limit", .int 3)]),
    ("actions", .arr [sampleAction])]

def sample : Connector where
  name := .str "c"
  protocol := .http
  description := .null
  version := .null
  parameters := [("limit", some "3")]
  credential := []
  actions := [⟨.predict, "GET", "http://x/", some [("a", none)], .null⟩]
  backendRoles := []
  accessMode := .null
  owner := .null
  auth := none

theorem sampleDocument_tidy : Everywhere Tidy sampleDocument := by
  have haction : Everywhere Tidy sampleAction := by
    refine .obj ⟨by decide, by decide⟩ ?_
    simp only [List.forall_mem_cons]
    exact ⟨.leaf rfl rfl, .leaf rfl rfl, .leaf rfl rfl, .obj ⟨by decide, by decide⟩
      (List.forall_mem_singleton.mpr (.leaf rfl trivial)), nofun⟩
  refine .obj ⟨by decide, by decide⟩ ?_
  simp only [List.forall_mem_cons]
  exact ⟨.leaf rfl rfl, .leaf rfl rfl, .obj ⟨by decide, by decide⟩
    (List.forall_mem_singleton.mpr (.leaf rfl trivial)), .arr trivial
    (List.forall_mem_singleton.mpr haction), nofun⟩

theorem sample_clones : ofJson sampleDocument = .ok sample ∧ sample.clone = .ok sample := by
  have hload : ofJson sampleDocument = .ok sample := rfl
  refine ⟨hload, clone_eq hload sampleDocument_tidy ?_⟩
  simp only [freeForm, sample, List.forall_mem_append, List.forall_mem_cons, List.map_cons,
    List.map_nil]
  exact ⟨⟨⟨.leaf rfl trivial, .leaf rfl trivial, .leaf rfl trivial, .leaf rfl trivial,
    .leaf rfl trivial, nofun⟩, nofun⟩, .leaf rfl trivial, nofun⟩

end Connector

end RemoteModel
