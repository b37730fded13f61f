import RemoteModel.Artifact.Prebuilt
import RemoteModel.Proofs.Entries
import RemoteModel.Proofs.Results
import RemoteModel.Proofs.Text.Case

/-!
Model configurations in normal form. The known names of a document are kept in their order, each value is
made from the one value under its name, and making it again changes nothing.
-/

namespace RemoteModel

namespace ConfigField

variable {field : ConfigField} {v w : Json}

theorem normalize_count (h : count.normalize v = .ok w) : ∃ i, w = .int i := by
  obtain ⟨i, -, rfl⟩ := ok_of_map.mp h
  exact ⟨i, rfl⟩

theorem normalize_document (h : document.normalize v = .ok w) : ∃ t, w = .str t := by
  cases v <;> cases h <;> exact ⟨_, rfl⟩

theorem normalize_normalize (h : field.normalize v = .ok w) : field.normalize w = .ok w := by
  cases field with
  | count =>
      obtain ⟨i, rfl⟩ := normalize_count h
      rfl
  | upperText =>
      cases h
      exact congrArg (fun t => Except.ok (Json.str t)) (Text.upper_upper _)
  | truth =>
      have hread : ∀ b, truth.normalize (.bool b) = .ok (.bool b) := by decide
      cases h
      exact hread _
  | document =>
      obtain ⟨t, rfl⟩ := normalize_document h
      rfl
  | text =>
      cases h
      rfl

end ConfigField

namespace ModelConfig

open ConfigField

/-- The second value is what is made of the first one under the name. -/
def Settles (name : Text) (v w : Json) : Prop :=
  ∃ field, table.get? name = some field ∧ field.normalize v = .ok w

variable {raw c : Entries Json} {name : Text} {v w w' : Json}

theorem Settles.again (h : Settles name v w) : Settles name w w := by
  obtain ⟨field, hfield, hvalue⟩ := h
  exact ⟨field, hfield, normalize_normalize hvalue⟩

theorem Settles.unique (h : Settles name v w) (h' : Settles name v w') : w = w' := by
  obtain ⟨field, hfield, hvalue⟩ := h
  obtain ⟨field', hfield', hvalue'⟩ := h'
  cases hfield.symm.trans hfield'
  exact Except.ok.inj (hvalue.symm.trans hvalue')

theorem Settles.unique_rel {given made made' : Option Json} (h : Option.Rel (Settles name) given made)
    (h' : Option.Rel (Settles name) given made') : made = made' := by
  cases h with
  | none =>
      cases h'
      rfl
  | some hvalue =>
      cases h' with
      | some hvalue' => exact congrArg some (hvalue.unique hvalue')

theorem Settles.known (h : Settles name v w) : table.has name = true := by
  obtain ⟨field, hfield, -⟩ := h
  rw [Entries.has, hfield]
  rfl

def knownFields (fields : Entries Json) : Entries Json := fields.filter fun e => table.has e.1

theorem names_knownFields (fields : Entries Json) :
    (knownFields fields).names = fields.names.filter table.has :=
  (List.filter_map (f := Prod.fst) (p := table.has)).symm

theorem normalizeFields_eq_ok_iff :
    normalizeFields raw = .ok c ↔ Entries.Related Settles (knownFields raw) c := by
  induction raw generalizing c with
  | nil =>
      refine Iff.trans ?_ List.forall₂_nil_left_iff.symm
      constructor
      · exact fun h => (Except.ok.inj h).symm
      · rintro rfl
        rfl
  | cons e raw ih =>
      obtain ⟨name, v⟩ := e
      unfold knownFields at ih ⊢
      rw [normalizeFields, List.filter_cons, Entries.has]
      cases hfield : table.get? name with
      | none => exact ih
      | some field =>
          refine Iff.trans ?_ List.forall₂_cons_left_iff.symm
          constructor
          · intro h
            obtain ⟨w, hvalue, h⟩ := ok_of_bind h
            obtain ⟨rest, hrest, h⟩ := ok_of_bind h
            cases h
            exact ⟨(name, w), rest, ⟨rfl, field, hfield, hvalue⟩, ih.mp hrest, rfl⟩
          · rintro ⟨⟨_, w⟩, rest, ⟨rfl, field', hfield', hvalue⟩, hrest, rfl⟩
            cases hfield.symm.trans hfield'
            simp only [hvalue, ih.mpr hrest]
            rfl

theorem settled_of_made (h : Entries.Related Settles raw c) : Entries.Related Settles (knownFields c) c := by
  induction h with
  | nil => exact .nil
  | @cons _ e _ rest he _ ih =>
      have hagain : Settles e.1 e.2 e.2 := (he.1 ▸ he.2).again
      have hknown : knownFields (e :: rest) = e :: knownFields rest :=
        List.filter_cons_of_pos hagain.known
      rw [hknown]
      exact .cons ⟨rfl, hagain⟩ ih

theorem get?_normalizeFields (h : normalizeFields raw = .ok c) (name : Text) :
    Option.Rel (Settles name) (if table.has name then raw.get? name else none) (c.get? name) := by
  have hvalue := (normalizeFields_eq_ok_iff.mp h).get? name
  rwa [knownFields, Entries.get?_filter] at hvalue

theorem normalize_eq_ok_iff :
    normalize (.obj raw) = .ok (some c) ↔ normalizeFields raw = .ok c := by
  rw [normalize, ok_of_map]
  exact ⟨fun ⟨_, hfields, heq⟩ => Option.some.inj heq ▸ hfields, fun h => ⟨c, h, rfl⟩⟩

theorem config_of_configured {r r' : Registration} {format : ModelFormat} {url : Text}
    {document : Entries Json} (h : normalize (.obj raw) = .ok (some c))
    (hraw : document.get? "model_config" = some (.obj raw))
    (hconfigured : ModelCache.configured r format url document = .ok r') : r'.config = some c := by
  obtain ⟨declared, -, hconfigured⟩ := ok_of_bind hconfigured
  obtain ⟨model, hmodel, hconfigured⟩ := ok_of_bind hconfigured
  rw [hraw, Option.getD_some, h] at hmodel
  cases hmodel
  cases hconfigured
  rfl

/-- What was normalized once is its own normal form; the names are those that are known, as they came, and
a value is made from what stood under its name and from nothing else. A registration that is made from the
document has the configuration in this form. -/
theorem normalize_settles (h : normalize (.obj raw) = .ok (some c)) :
    normalize (.obj c) = .ok (some c) ∧
    c.names = raw.names.filter table.has ∧
    (∀ raw' c' : Entries Json, normalize (.obj raw') = .ok (some c') →
      ∀ name, raw.get? name = raw'.get? name → c.get? name = c'.get? name) ∧
    ∀ r format url document r', document.get? "model_config" = some (.obj raw) →
      ModelCache.configured r format url document = .ok r' → r'.config = some c := by
  have hfields := normalize_eq_ok_iff.mp h
  have hmade := normalizeFields_eq_ok_iff.mp hfields
  refine ⟨?_, ?_, fun raw' c' h' name hsame => ?_, fun _ _ _ _ _ => config_of_configured h⟩
  · exact normalize_eq_ok_iff.mpr (normalizeFields_eq_ok_iff.mpr (settled_of_made hmade))
  · rw [← hmade.names]
    exact names_knownFields raw
  · have hvalue := get?_normalizeFields hfields name
    rw [hsame] at hvalue
    exact Settles.unique_rel hvalue (get?_normalizeFields (normalize_eq_ok_iff.mp h') name)

def sampleRaw : Entries Json :=
  [("note", .null), ("embedding_dimension", .str " 384 "), ("normalize_result", .str "TRUE"),
    ("pooling_mode", .str "groß"), ("all_config", .obj [("a", .null)]), ("model_type", .arr [])]

def sampleConfig : Entries Json :=
  [("embedding_dimension", .int 384), ("normalize_result", .bool true), ("pooling_mode", .str "GROSS"),
    ("all_config", .str "\x7b\"a\": null\x7d"), ("model_type", .str "[]")]

theorem sample_settles : normalize (.obj sampleRaw) = .ok (some sampleConfig) ∧
    normalize (.obj sampleConfig) = .ok (some sampleConfig) ∧
    sampleConfig.names = sampleRaw.names.filter table.has ∧
    (∃ pooled : Entries Json, normalize (.obj [("pooling_mode", .str "groß")]) = .ok (some pooled) ∧
      sampleConfig.get? "pooling_mode" = pooled.get? "pooling_mode") ∧
    ∃ r r', ModelCache.configured r .onnx "u" [("model_config", .obj sampleRaw)] = .ok r' ∧
      r'.config = some sampleConfig := by
  have hmade : normalize (.obj sampleRaw) = .ok (some sampleConfig) := by rfl
  have hpooled : normalize (.obj [("pooling_mode", .str "groß")]) =
      .ok (some [("pooling_mode", .str "GROSS")]) := by rfl
  have hconfigured : ModelCache.configured
      ⟨"m", "1", none, none, none, none, .textEmbedding, none, none, fun _ => none⟩ .onnx "u"
        [("model_config", .obj sampleRaw)] = .ok
      ⟨"m", "1", some .onnx, none, some "u", none, .textEmbedding, some sampleConfig, none,
        fun _ => none⟩ := by rfl
  obtain ⟨hagain, hnames, hvalues, hregistered⟩ := normalize_settles hmade
  exact ⟨hmade, hagain, hnames, ⟨_, hpooled, hvalues _ _ hpooled "pooling_mode" rfl⟩, _, _, hconfigured,
    hregistered _ _ _ _ _ rfl hconfigured⟩

end ModelConfig

end RemoteModel
