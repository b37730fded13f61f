import RemoteModel.Artifact.MetaList
import RemoteModel.Proofs.Http.Target

/-!
Which prebuilt models are offered. A model is allowed if one entry of the list has its name, its version in
lower case and its format in lower case. The order of the entries does not matter, and more entries
allow no less; but a version that is listed with a capital letter allows nothing, not even itself.
-/

namespace RemoteModel

theorem Text.lower_ascii {t : Text} (ht : ∀ x ∈ t, x.isAscii = true) : t.lower = t.lowerAscii := by
  have h := lowerAfter_ascii ht [] []
  simpa [lower, lowerAfter] using h

namespace MetaList

/-- What an entry of the list says of a model. -/
structure Offer where
  name : Json
  versions : List Text
  formats : List Text

namespace Offer

/-- The entry says it, whatever else it says. -/
structure IsIn (o : Offer) (entry : Json) : Prop where
  name : entry.field "name" = .ok o.name
  versions : entry.field "version" = .ok (.arr (o.versions.map .str))
  formats : entry.field "format" = .ok (.arr (o.formats.map .str))

theorem IsIn.unique {o o' : Offer} {entry : Json} (h : o.IsIn entry) (h' : o'.IsIn entry) : o = o' := by
  obtain ⟨name, versions, formats⟩ := o
  obtain ⟨name', versions', formats'⟩ := o'
  have htexts {ts ts' : List Text} (h : (ts.map Json.str) = ts'.map .str) : ts = ts' :=
    (List.map_inj_right fun _ _ => Json.str.inj).mp h
  have hname := Except.ok.inj (h.name.symm.trans h'.name)
  have hversions := htexts (Json.arr.inj (Except.ok.inj (h.versions.symm.trans h'.versions)))
  have hformats := htexts (Json.arr.inj (Except.ok.inj (h.formats.symm.trans h'.formats)))
  simp_all

/-- The offer is of the model in the format, and of one of some versions. -/
structure Meets (o : Offer) (r : Registration) (f : ModelFormat) (wanted : Text → Prop) : Prop where
  name : o.name = .str r.name
  version : ∃ v ∈ o.versions, wanted v
  format : f.name.lower ∈ o.formats

end Offer

open Offer

/-- Some entry makes an offer of the model. -/
def Offered (entries : List Json) (r : Registration) (f : ModelFormat) (wanted : Text → Prop) : Prop :=
  ∃ entry ∈ entries, ∃ o : Offer, o.IsIn entry ∧ o.Meets r f wanted

def IsRegular (entries : List Json) : Prop := ∀ entry ∈ entries, ∃ o : Offer, o.IsIn entry

variable {r : Registration} {f : ModelFormat} {entries more : List Json} {entry : Json}

theorem listed_texts (texts : List Text) (v : Text) :
    listed (.arr (texts.map .str)) (some v) = .ok (decide (v ∈ texts)) := by
  cases texts with
  | nil => rfl
  | cons t ts => simp [listed, Json.isVacant, Json.ofText?]

theorem entryAllows_eq {o : Offer} (ho : o.IsIn entry) (hformat : r.format = some f) :
    ∃ b, entryAllows r entry = .ok b ∧ (b = true ↔ o.Meets r f (· = r.version.lower)) := by
  have hmeets : o.Meets r f (· = r.version.lower) ↔
      o.name = .str r.name ∧ r.version.lower ∈ o.versions ∧ f.name.lower ∈ o.formats := by
    refine ⟨?_, fun ⟨hname, hversion, hf⟩ => ⟨hname, ⟨_, hversion, rfl⟩, hf⟩⟩
    rintro ⟨hname, ⟨_, hversion, rfl⟩, hf⟩
    exact ⟨hname, hversion, hf⟩
  rw [hmeets]
  unfold entryAllows
  rw [ho.name, ho.versions, ho.formats, hformat]
  simp only [bind, Except.bind, Option.map_some, listed_texts]
  by_cases hname : o.name = .str r.name
  · by_cases hversion : r.version.lower ∈ o.versions
    · exact ⟨decide (f.name.lower ∈ o.formats), by simp [hname, hversion], by simp [hname, hversion]⟩
    · exact ⟨false, by simp [hname, hversion, pure, Except.pure], by simp [hversion]⟩
  · exact ⟨false, by simp [hname, pure, Except.pure], by simp [hname]⟩

theorem allows_eq (hformat : r.format = some f) (hregular : IsRegular entries) :
    ∃ b, allows r entries = .ok b ∧ (b = true ↔ Offered entries r f (· = r.version.lower)) := by
  induction entries with
  | nil => exact ⟨false, rfl, by simp [Offered]⟩
  | cons entry rest ih =>
      obtain ⟨o, ho⟩ := hregular entry List.mem_cons_self
      obtain ⟨b, hentry, hb⟩ := entryAllows_eq ho hformat
      obtain ⟨b', hrest, hb'⟩ := ih fun e he => hregular e (List.mem_cons_of_mem _ he)
      have hhere : o.Meets r f (· = r.version.lower) ↔
          ∃ o' : Offer, o'.IsIn entry ∧ o'.Meets r f (· = r.version.lower) :=
        ⟨fun h => ⟨o, ho, h⟩, fun ⟨o', ho', h⟩ => ho.unique ho' ▸ h⟩
      refine ⟨b || b', ?_, ?_⟩
      · rw [allows, hentry]
        cases b with
        | true => rfl
        | false => exact hrest
      · rw [Bool.or_eq_true, hb, hb', hhere]
        simp [Offered]

theorem offered_congr {wanted wanted' : Text → Prop}
    (h : ∀ entry ∈ entries, ∀ o : Offer, o.IsIn entry → ∀ v ∈ o.versions, wanted v ↔ wanted' v) :
    Offered entries r f wanted ↔ Offered entries r f wanted' := by
  refine exists_congr fun entry => and_congr_right fun hentry => exists_congr fun o =>
    and_congr_right fun ho => ?_
  have hversions : (∃ v ∈ o.versions, wanted v) ↔ ∃ v ∈ o.versions, wanted' v :=
    exists_congr fun v => and_congr_right (h entry hentry o ho v)
  exact ⟨fun ⟨hname, hv, hf⟩ => ⟨hname, hversions.mp hv, hf⟩,
    fun ⟨hname, hv, hf⟩ => ⟨hname, hversions.mpr hv, hf⟩⟩

theorem Offered.mono {wanted : Text → Prop} (h : Offered entries r f wanted) (hsub : entries ⊆ more) :
    Offered more r f wanted := by
  obtain ⟨entry, hentry, hoffer⟩ := h
  exact ⟨entry, hsub hentry, hoffer⟩

/-- A list of regular entries allows a model exactly if it offers it in the lower case of its version. Of a
version without letters beyond the alphabet, and versions listed without capitals, the case does not
matter. The answer depends on what entries there are, not on their order, and with more of them a model
that was allowed still is. -/
theorem allows_iff (hformat : r.format = some f) (hregular : IsRegular entries) :
    (allows r entries = .ok true ∨ allows r entries = .ok false) ∧
    (allows r entries = .ok true ↔ Offered entries r f (· = r.version.lower)) ∧
    ((∀ x ∈ r.version, x.isAscii = true) →
      (∀ entry ∈ entries, ∀ o : Offer, o.IsIn entry → ∀ v ∈ o.versions, v.lowerAscii = v) →
      (allows r entries = .ok true ↔
        Offered entries r f fun v => v.lowerAscii = r.version.lowerAscii)) ∧
    (∀ more, entries.Perm more → allows r more = allows r entries) ∧
    ∀ more, entries ⊆ more → IsRegular more → allows r entries = .ok true →
      allows r more = .ok true := by
  have hanswer {entries : List Json} (hregular : IsRegular entries) :
      (allows r entries = .ok true ∨ allows r entries = .ok false) ∧
      (allows r entries = .ok true ↔ Offered entries r f (· = r.version.lower)) := by
    obtain ⟨b, heq, hb⟩ := allows_eq hformat hregular
    rw [heq]
    cases b <;> simp_all
  obtain ⟨hends, hiff⟩ := hanswer hregular
  refine ⟨hends, hiff, fun hascii hlower => ?_, fun more hperm => ?_, fun more hsub hmore hallowed => ?_⟩
  · rw [hiff]
    refine offered_congr fun entry hentry o ho v hv => ?_
    rw [Text.lower_ascii hascii, hlower entry hentry o ho v hv]
  · obtain ⟨hends', hiff'⟩ := hanswer fun entry h => hregular entry (hperm.mem_iff.mpr h)
    have hsame : allows r more = .ok true ↔ allows r entries = .ok true := by
      rw [hiff, hiff']
      exact ⟨fun h => h.mono hperm.symm.subset, fun h => h.mono hperm.subset⟩
    rcases hends with h | h
    · rw [h, hsame, h]
    · rcases hends' with h' | h'
      · exact (hsame.mp h').symm ▸ h'
      · rw [h, h']
  · rw [(hanswer hmore).2]
    exact (hiff.mp hallowed).mono hsub

def listedOnnx (version : Text) : Json :=
  .obj [("name", .str "m"), ("version", .arr [.str version]), ("format", .arr [.str "onnx"])]

def askedOnnx (version : Text) : Registration where
  name := "m"
  version := version
  format := some .onnx
  hash := none
  url := none
  connector := none
  function := .textEmbedding
  config := none
  storageEndpoint := none
  auth _ := none

theorem listedOnnx_isIn (version : Text) :
    Offer.IsIn ⟨.str "m", [version], ["onnx"]⟩ (listedOnnx version) :=
  ⟨rfl, rfl, rfl⟩

theorem listedOnnx_regular (version : Text) : IsRegular [listedOnnx version] :=
  List.forall_mem_singleton.mpr ⟨_, listedOnnx_isIn version⟩

theorem small_version_allowed : allows (askedOnnx "1.0-RC") [listedOnnx "1.0-rc"] = .ok true := by
  refine ((allows_iff (r := askedOnnx "1.0-RC") (f := .onnx) rfl
    (listedOnnx_regular "1.0-rc")).2.2.1 (by decide) ?_).mpr ?_
  · refine List.forall_mem_singleton.mpr fun o ho => ?_
    rw [ho.unique (listedOnnx_isIn "1.0-rc")]
    decide
  · exact ⟨_, List.mem_cons_self, _, listedOnnx_isIn "1.0-rc", rfl, ⟨_, List.mem_cons_self, by decide⟩,
      by decide +kernel⟩

/-- A version that is listed just as it is asked for is not found if it has a capital letter. -/
theorem capital_version_not_allowed :
    ¬∀ (r : Registration) (f : ModelFormat) (entries : List Json), r.format = some f →
      IsRegular entries → (allows r entries = .ok true ↔
        Offered entries r f fun v => v.lowerAscii = r.version.lowerAscii) := by
  intro hall
  have hiff := hall (askedOnnx "1.0-RC") .onnx _ rfl (listedOnnx_regular "1.0-RC")
  have hallowed := hiff.mpr ⟨_, List.mem_cons_self, _, listedOnnx_isIn "1.0-RC", rfl,
    ⟨_, List.mem_cons_self, rfl⟩, by decide +kernel⟩
  have hrefused : allows (askedOnnx "1.0-RC") [listedOnnx "1.0-RC"] = .ok false := by
    decide +kernel
  rw [hrefused] at hallowed
  cases hallowed

end MetaList

end RemoteModel
