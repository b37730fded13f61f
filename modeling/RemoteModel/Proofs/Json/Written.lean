import RemoteModel.Proofs.Json.Quoted
import RemoteModel.Proofs.Json.Shown

/-!
How values are written: in printable ASCII, whatever the text in them is.
-/

namespace RemoteModel

/-- Printable ASCII. -/
def Rune.isPlain (r : Rune) : Bool := 0x20 ≤ r.code && r.code ≤ 0x7E

theorem Rune.isScalar_of_isPlain {r : Rune} (hr : r.isPlain = true) : r.isScalar = true := by
  cases r with
  | scalar c => rfl
  | half u =>
      have hcode : 0xD800 + u.val ≤ 0x7E := of_decide_eq_true (Bool.and_eq_true_iff.mp hr).2
      omega

theorem Rune.isPlain_of_isDigit {r : Rune} (hr : r.isDigit = true) : r.isPlain = true := by
  simp only [isDigit, isPlain, Bool.and_eq_true, decide_eq_true_eq] at hr ⊢
  omega

theorem Rune.isPlain_of_hexValue {r : Rune} {n : Nat} (hr : r.hexValue? = some n) :
    r.isPlain = true := by
  unfold hexValue? at hr
  dsimp only at hr
  simp only [isPlain, Bool.and_eq_true, decide_eq_true_eq]
  split_ifs at hr <;> omega

namespace Text

def isPlain (t : Text) : Bool := t.all Rune.isPlain

@[simp]
theorem isPlain_append (s t : Text) :
    (s ++ t).isPlain = (s.isPlain && t.isPlain) :=
  List.all_append

@[simp]
theorem isPlain_cons (r : Rune) (t : Text) :
    isPlain (r :: t) = (r.isPlain && t.isPlain) := rfl

theorem isWellFormed_of_isPlain {t : Text} (ht : t.isPlain = true) :
    t.isWellFormed = true :=
  List.all_eq_true.mpr fun r hr => Rune.isScalar_of_isPlain (List.all_eq_true.mp ht r hr)

theorem isPlain_ofNat (n : Nat) : (ofNat n).isPlain = true :=
  List.all_eq_true.mpr fun _ hr => Rune.isPlain_of_isDigit (isDigit_of_mem_ofNat hr)

theorem isPlain_ofInt (i : Int) : (ofInt i).isPlain = true := by
  unfold ofInt
  split
  next => exact isPlain_ofNat i.natAbs
  next => exact isPlain_ofNat i.natAbs

end Text

namespace Json

theorem isPlain_unicodeEscape {n : Nat} (hn : n < 0x10000) :
    (unicodeEscape n).isPlain = true := by
  obtain ⟨a, b, c, d, hhex, hquad⟩ := hex_four hn
  unfold unicodeEscape
  rw [hhex]
  unfold hexQuad? at hquad
  split at hquad
  next ha hb hc hd =>
    simp only [Text.isPlain_cons, Rune.isPlain_of_hexValue ha, Rune.isPlain_of_hexValue hb,
      Rune.isPlain_of_hexValue hc, Rune.isPlain_of_hexValue hd]
    rfl
  next => cases hquad

theorem isPlain_escapeRune (r : Rune) : (escapeRune r).isPlain = true := by
  unfold escapeRune
  dsimp only
  iterate 7
    split
    next => rfl
  split
  next hplain =>
    simp only [Text.isPlain, List.all_cons, List.all_nil, Rune.isPlain, Bool.and_true,
      Bool.and_eq_true, decide_eq_true_eq]
    omega
  next =>
    have hcode := r.code_lt
    split
    next hsmall => exact isPlain_unicodeEscape hsmall
    next =>
      rw [Text.isPlain_append, isPlain_unicodeEscape (by omega),
        isPlain_unicodeEscape (by omega)]
      rfl

theorem isPlain_renderText (t : Text) : (renderText t).isPlain = true := by
  have hbody : Text.isPlain (t.flatMap escapeRune) = true := by
    refine List.all_eq_true.mpr fun s hs => ?_
    obtain ⟨r, -, hs⟩ := List.mem_flatMap.mp hs
    exact List.all_eq_true.mp (isPlain_escapeRune r) s hs
  unfold renderText
  rw [Text.isPlain_cons, Text.isPlain_append, hbody]
  rfl

theorem isPlain_renderItems {items : List Json}
    (hitems : ∀ v ∈ items, v.render.isPlain = true) :
    (renderItems items).isPlain = true := by
  induction items with
  | nil => rfl
  | cons v items ih =>
      obtain ⟨hv, hitems⟩ := List.forall_mem_cons.mp hitems
      rw [renderItems, Text.isPlain_cons, Text.isPlain_cons, Text.isPlain_append, hv,
        ih hitems]
      rfl

/-- A field as it stands behind a brace or a comma and its blank. -/
theorem isPlain_field {name rest : Text} {v : Json} (hv : v.render.isPlain = true)
    (hrest : rest.isPlain = true) :
    Text.isPlain (renderText name ++ .scalar ':' :: .scalar ' ' :: (v.render ++ rest)) = true := by
  rw [Text.isPlain_append, isPlain_renderText, Text.isPlain_cons, Text.isPlain_cons,
    Text.isPlain_append, hv, hrest]
  rfl

theorem isPlain_renderFields {fields : List (Text × Json)}
    (hfields : ∀ f ∈ fields, f.2.render.isPlain = true) :
    (renderFields fields).isPlain = true := by
  induction fields with
  | nil => rfl
  | cons f fields ih =>
      obtain ⟨hv, hfields⟩ := List.forall_mem_cons.mp hfields
      rw [renderFields, Text.isPlain_cons, Text.isPlain_cons,
        isPlain_field hv (ih hfields)]
      rfl

theorem isPlain_render {v : Json} (hexact : Everywhere Exact v) :
    v.render.isPlain = true := by
  induction hexact with
  | @intro v hv _ ih =>
      match v with
      | .null => rfl
      | .bool true => rfl
      | .bool false => rfl
      | .int i => exact Text.isPlain_ofInt i
      | .float x => exact hv.elim
      | .str t => exact isPlain_renderText t
      | .arr [] => rfl
      | .arr (v :: items) =>
          obtain ⟨hv, hitems⟩ := List.forall_mem_cons.mp ih
          rw [render, Text.isPlain_cons, Text.isPlain_append, hv,
            isPlain_renderItems hitems]
          rfl
      | .obj [] => rfl
      | .obj ((name, v) :: fields) =>
          obtain ⟨hv, hfields⟩ := List.forall_mem_cons.mp ih
          have hrest := isPlain_renderFields (List.forall_mem_map.mp hfields)
          rw [render, Text.isPlain_cons, isPlain_field hv hrest]
          rfl

theorem isWellFormed_render {v : Json} (hexact : Everywhere Exact v) :
    v.render.isWellFormed = true :=
  Text.isWellFormed_of_isPlain (isPlain_render hexact)

end Json

end RemoteModel
