import RemoteModel.Json.Shown
import RemoteModel.Proofs.Json.Everywhere
import RemoteModel.Proofs.Text.Digits

/-!
How values read. A value whose text is well formed reads as well-formed text, and only an empty text
reads as nothing.
-/

namespace RemoteModel

@[simp]
theorem Rune.isScalar_scalar (c : Char) : (Rune.scalar c).isScalar = true := rfl

namespace Text

@[simp]
theorem isWellFormed_nil : isWellFormed [] = true := rfl

@[simp]
theorem isWellFormed_append (s t : Text) :
    (s ++ t).isWellFormed = (s.isWellFormed && t.isWellFormed) :=
  List.all_append

@[simp]
theorem isWellFormed_cons (r : Rune) (t : Text) :
    isWellFormed (r :: t) = (r.isScalar && t.isWellFormed) := rfl

theorem isWellFormed_iff {t : Text} : t.isWellFormed = true ↔ ∀ r ∈ t, r.isScalar = true :=
  List.all_eq_true

theorem isWellFormed_scalars (cs : List Char) : isWellFormed (cs.map .scalar) = true := by
  refine isWellFormed_iff.mpr fun r hr => ?_
  obtain ⟨c, _, rfl⟩ := List.mem_map.mp hr
  rfl

theorem isWellFormed_ofString (s : String) : (ofString s).isWellFormed = true :=
  isWellFormed_scalars _

theorem isWellFormed_ofNat (n : Nat) : (ofNat n).isWellFormed = true := isWellFormed_scalars _

theorem isWellFormed_ofInt (i : Int) : (ofInt i).isWellFormed = true := by
  unfold ofInt
  split
  next => exact isWellFormed_ofNat i.natAbs
  next => exact isWellFormed_ofNat i.natAbs

theorem isWellFormed_hex (width n : Nat) : (hex width n).isWellFormed = true := by
  unfold hex
  rw [isWellFormed_append, Bool.and_eq_true]
  refine ⟨isWellFormed_iff.mpr fun r hr => ?_, isWellFormed_scalars _⟩
  rw [List.eq_of_mem_replicate hr]
  rfl

theorem isWellFormed_flatMap {f : Rune → Text} {t : Text}
    (h : ∀ r ∈ t, (f r).isWellFormed = true) : isWellFormed (t.flatMap f) = true := by
  induction t with
  | nil => rfl
  | cons r t ih =>
      rw [List.flatMap_cons, isWellFormed_append, h r List.mem_cons_self,
        ih fun s hs => h s (List.mem_cons_of_mem _ hs)]
      rfl

theorem isWellFormed_quotedWith (quote : Rune) {r : Rune} (hr : r.isScalar = true) :
    (Rune.quotedWith quote r).isWellFormed = true := by
  unfold Rune.quotedWith Rune.escaped
  dsimp only
  split_ifs <;> simp [isWellFormed_ofString, isWellFormed_hex, hr]

theorem isWellFormed_quoted {t : Text} (ht : t.isWellFormed = true) :
    t.quoted.isWellFormed = true := by
  have hbody (quote : Rune) : isWellFormed (t.flatMap (Rune.quotedWith quote)) = true :=
    isWellFormed_flatMap fun r hr => isWellFormed_quotedWith quote (isWellFormed_iff.mp ht r hr)
  unfold quoted
  dsimp only
  split <;> simp [hbody]

theorem isWellFormed_join {sep : Text} {parts : List Text} (hsep : sep.isWellFormed = true)
    (hparts : ∀ part ∈ parts, part.isWellFormed = true) : (join sep parts).isWellFormed = true := by
  unfold join
  induction parts with
  | nil => rfl
  | cons part parts ih =>
      have hpart := hparts part List.mem_cons_self
      have hrest := ih fun p hp => hparts p (List.mem_cons_of_mem _ hp)
      cases parts with
      | nil => rwa [List.intercalate_singleton]
      | cons next parts =>
          rw [List.intercalate_cons_cons, isWellFormed_append, isWellFormed_append, hpart, hsep,
            hrest]
          rfl

end Text

namespace Binary64

theorem isWellFormed_text (x : Binary64) : x.text.isWellFormed = true := by
  unfold text
  split
  next => rfl
  next => split <;> rfl
  next => exact Text.isWellFormed_scalars _

theorem layOut_ne_nil (digits : List Char) (top : Int) : layOut digits top ≠ [] := by
  unfold layOut
  split
  next =>
    split
    next => simp
    next => simp
  next => simp

theorem text_ne_nil (x : Binary64) : x.text ≠ [] := by
  unfold text
  split
  next => exact List.cons_ne_nil _ _
  next => split <;> exact List.cons_ne_nil _ _
  next negative mantissa exponent _ =>
    have hbody : (if mantissa = 0 then ['0', '.', '0'] else
        layOut (shortest mantissa exponent).1 (shortest mantissa exponent).2) ≠ [] := by
      split
      next => exact List.cons_ne_nil _ _
      next => exact layOut_ne_nil _ _
    refine fun hnil => hbody ?_
    have hall := List.map_eq_nil_iff.mp hnil
    cases negative with
    | true => cases hall
    | false => exact hall

end Binary64

namespace Json

theorem literal_ne_nil {v : Json} : v.literal ≠ [] := by
  unfold literal
  split
  next => exact List.cons_ne_nil _ _
  next b => cases b <;> exact List.cons_ne_nil _ _
  next i =>
    unfold Text.ofInt
    split
    next => exact List.cons_ne_nil _ _
    next => exact Text.ofNat_ne_nil _
  next x => exact x.text_ne_nil
  next => exact List.cons_ne_nil _ _
  next => exact List.cons_ne_nil _ _
  next => exact List.cons_ne_nil _ _

theorem shown_ne_nil {v : Json} (hv : v.isVacant = false) : v.shown ≠ [] := by
  unfold shown
  split
  next t => exact List.isEmpty_eq_false_iff.mp hv
  next => exact literal_ne_nil

theorem literalItems_eq (items : List Json) : literalItems items = items.map literal := by
  induction items with
  | nil => rfl
  | cons v items ih => rw [literalItems, ih, List.map_cons]

theorem literalFields_eq (fields : List (Text × Json)) :
    literalFields fields = fields.map fun f => f.1.quoted ++ ": " ++ literal f.2 := by
  induction fields with
  | nil => rfl
  | cons f fields ih => rw [literalFields, ih, List.map_cons]

theorem isWellFormed_literal {v : Json} (h : Everywhere Tidy v) : v.literal.isWellFormed = true := by
  induction h with
  | @intro v hv _ ih =>
      cases v with
      | null => rfl
      | bool b => cases b <;> rfl
      | int i => exact Text.isWellFormed_ofInt i
      | float x => exact x.isWellFormed_text
      | str t => exact Text.isWellFormed_quoted hv
      | arr items =>
          have hitems : ∀ part ∈ items.map literal, part.isWellFormed = true :=
            List.forall_mem_map.mpr ih
          rw [literal, literalItems_eq, Text.isWellFormed_cons, Text.isWellFormed_append,
            Text.isWellFormed_join (Text.isWellFormed_ofString ", ") hitems]
          rfl
      | obj fields =>
          have hfields : ∀ part ∈ fields.map fun f => f.1.quoted ++ ": " ++ literal f.2,
              part.isWellFormed = true := by
            refine List.forall_mem_map.mpr fun f hf => ?_
            have hname := Text.isWellFormed_quoted (hv.1 f.1 (List.mem_map_of_mem hf))
            have hvalue := ih f.2 (List.mem_map_of_mem hf)
            rw [Text.isWellFormed_append, Text.isWellFormed_append, hname, hvalue,
              Text.isWellFormed_ofString]
            rfl
          rw [literal, literalFields_eq, Text.isWellFormed_cons, Text.isWellFormed_append,
            Text.isWellFormed_join (Text.isWellFormed_ofString ", ") hfields]
          rfl

theorem isWellFormed_shown {v : Json} (h : Everywhere Tidy v) : v.shown.isWellFormed = true := by
  unfold shown
  split
  next => exact h.here
  next => exact isWellFormed_literal h

end Json

end RemoteModel
