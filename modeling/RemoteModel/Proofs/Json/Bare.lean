import Mathlib.Data.List.Find
import Mathlib.Data.List.TakeDrop
import RemoteModel.Proofs.Json.Numbers
import RemoteModel.Proofs.Results

/-!
Words and numbers end in front of a rune that is part of none: what one is read as there does not depend
on what stands behind that rune.
-/

namespace RemoteModel.Json

/-- A rune that is part of no word and no number. -/
def Ends (e : Rune) : Prop :=
  e.isDigit = false ∧
    e ∉ [Rune.scalar '.', .scalar 'e', .scalar 'E', .scalar '+', .scalar '-'] ∧
    ∀ w ∈ words, e ∉ w.1

instance (e : Rune) : Decidable (Ends e) := inferInstanceAs (Decidable (_ ∧ _ ∧ _))

/-- What stands in front of a rune starts a text, unless the rune itself does. -/
theorem head_append {t z rest : Text} {r e : Rune} (h : t ++ e :: z = r :: rest) (hr : r ≠ e) :
    ∃ tail, t = r :: tail ∧ rest = tail ++ e :: z := by
  cases t with
  | nil => exact absurd (List.cons.inj h).1.symm hr
  | cons s tail =>
      obtain ⟨rfl, rfl⟩ := List.cons.inj h
      exact ⟨tail, rfl, rfl⟩

theorem Ends.ne {e : Rune} (he : Ends e) {r : Rune}
    (hr : r ∈ [Rune.scalar '.', .scalar 'e', .scalar 'E', .scalar '+', .scalar '-']) : e ≠ r :=
  fun heq => he.2.1 (heq ▸ hr)

theorem skipSpace_cons {r : Rune} (hr : isSpace r = false) (t : Text) : skipSpace (r :: t) = r :: t :=
  List.dropWhile_cons_of_neg (by rw [hr]; exact Bool.false_ne_true)

section

variable {e : Rune}

theorem skipSpace_append (he : isSpace e = false) (t z : Text) :
    skipSpace (t ++ e :: z) = skipSpace t ++ e :: z := by
  induction t with
  | nil => exact skipSpace_cons he z
  | cons r t ih =>
      unfold skipSpace at ih ⊢
      rw [List.cons_append, List.dropWhile_cons, List.dropWhile_cons]
      split
      · exact ih
      · rfl

/-- A rune that is met in front of another is met there whatever the other one opens. -/
theorem skipSpace_head (he : isSpace e = false) {t z rest : Text} {r : Rune} (hr : r ≠ e)
    (h : skipSpace (t ++ e :: z) = r :: rest) : ∃ tail, rest = tail ++ e :: z ∧
      ∀ z', skipSpace (t ++ e :: z') = r :: (tail ++ e :: z') := by
  rw [skipSpace_append he] at h
  obtain ⟨tail, htail, rfl⟩ := head_append h hr
  exact ⟨tail, rfl, fun z' => by rw [skipSpace_append he, htail, List.cons_append]⟩

theorem skipSpace_ne_head (he : isSpace e = false) {t z : Text} {r : Rune} (hr : r ≠ e)
    (h : ∀ rest, skipSpace (t ++ e :: z) ≠ r :: rest) (z' rest : Text) :
    skipSpace (t ++ e :: z') ≠ r :: rest := fun heq => by
  obtain ⟨tail, -, hall⟩ := skipSpace_head he hr heq
  exact h _ (hall z)

theorem digitsOf_append (he : e.isDigit = false) (t z : Text) :
    digitsOf (t ++ e :: z) = ((digitsOf t).1, (digitsOf t).2 ++ e :: z) := by
  obtain ⟨ht, hdigits, hend⟩ := digitsOf_spec t
  have hrest : ∀ d tail, (digitsOf t).2 ++ e :: z = d :: tail → d.isDigit = false := by
    intro d tail heq
    by_cases hd : d = e
    · rw [hd, he]
    · obtain ⟨_, hleft, -⟩ := head_append heq hd
      exact hend d _ hleft
  rw [← digitsOf_digits hdigits hrest, ← List.append_assoc, ← ht]

end

section

variable {e : Rune} (he : Ends e) (t z : Text)
include he

theorem signed_append : Numeral.signed (t ++ e :: z) =
    ((Numeral.signed t).1, (Numeral.signed t).2 ++ e :: z) := by
  cases t with
  | nil =>
      unfold Numeral.signed
      simp [he.ne]
  | cons r t =>
      by_cases hminus : r = .scalar '-'
      · rw [hminus]
        rfl
      · by_cases hplus : r = .scalar '+'
        · rw [hplus]
          rfl
        · unfold Numeral.signed
          simp [hminus, hplus]

theorem scanFraction_append : scanFraction (t ++ e :: z) =
    ((scanFraction t).1, (scanFraction t).2 ++ e :: z) := by
  cases t with
  | nil =>
      unfold scanFraction
      simp [he.ne]
  | cons r t =>
      by_cases hpoint : r = .scalar '.'
      · rw [hpoint, List.cons_append]
        rw [scanFraction, scanFraction, digitsOf_append he.1]
        rcases digitsOf t with ⟨ds, rest⟩
        cases ds <;> rfl
      · unfold scanFraction
        simp [hpoint]

theorem scanExponent_append : scanExponent (t ++ e :: z) =
    ((scanExponent t).1, (scanExponent t).2 ++ e :: z) := by
  cases t with
  | nil =>
      unfold scanExponent
      simp [he.ne]
  | cons r t =>
      by_cases hmark : r = .scalar 'e' ∨ r = .scalar 'E'
      · have hsigned := signed_append he t z
        have hdigits := digitsOf_append he.1 (Numeral.signed t).2 z
        rcases hmark with rfl | rfl
        all_goals
          rw [List.cons_append, scanExponent, scanExponent, hsigned]
          dsimp only
          rw [hdigits]
          rcases digitsOf (Numeral.signed t).2 with ⟨ds, rest⟩
          cases ds <;> rfl
      · obtain ⟨hsmall, hlarge⟩ := not_or.mp hmark
        unfold scanExponent
        simp [hsmall, hlarge]

theorem scanWhole_append : scanWhole (t ++ e :: z) =
    (scanWhole t).map fun found => (found.1, found.2 ++ e :: z) := by
  cases t with
  | nil =>
      have hnought : e ≠ .scalar '0' := by
        rintro rfl
        cases he.1
      rw [List.nil_append, scanWhole, he.1]
      · rfl
      · exact hnought
  | cons r t =>
      by_cases hnought : r = .scalar '0'
      · rw [hnought]
        rfl
      · have hdigits := digitsOf_append he.1 (r :: t) z
        rw [List.cons_append] at hdigits ⊢
        unfold scanWhole
        cases hr : r.isDigit <;> simp [hr, hdigits]

end

section

variable {e : Rune} (he : Ends e) (t z : Text)
include he

theorem scanUnsigned_append (negative : Bool) (left left' : Nat) :
    (scanUnsigned negative left (t ++ e :: z)).toOption =
      (scanUnsigned negative left' t).toOption.map fun found => (found.1, found.2 ++ e :: z) := by
  unfold scanUnsigned
  rw [scanWhole_append he]
  rcases scanWhole t with _ | ⟨whole, rest⟩
  · rfl
  · dsimp only [Option.map]
    rw [scanFraction_append he]
    dsimp only
    rw [scanExponent_append he]
    rcases scanFraction rest with ⟨fraction, rest⟩
    dsimp only
    rcases scanExponent rest with ⟨exponent, rest⟩
    dsimp only
    rcases fraction with _ | fraction
    · rcases exponent with _ | exponent
      · dsimp only
        split <;> rfl
      · rfl
    · rfl

theorem scanNumber_append : (scanNumber (t ++ e :: z)).toOption =
    (scanNumber t).toOption.map fun found => (found.1, found.2 ++ e :: z) := by
  by_cases hminus : ∃ tail, t = .scalar '-' :: tail
  · obtain ⟨tail, rfl⟩ := hminus
    rw [List.cons_append, scanNumber_minus, scanNumber_minus]
    exact scanUnsigned_append he tail z true _ _
  · have hnone : ∀ tail, t ++ e :: z ≠ .scalar '-' :: tail := fun tail heq => by
      obtain ⟨tail, rfl, _⟩ := head_append heq (he.ne (by decide)).symm
      exact hminus ⟨tail, rfl⟩
    rw [scanNumber_unsigned hnone, scanNumber_unsigned (fun tail heq => hminus ⟨tail, heq⟩)]
    exact scanUnsigned_append he t z false _ _

end

theorem startsWith_append {e : Rune} {w : Text} (hw : e ∉ w) (t z : Text) :
    (t ++ e :: z).startsWith w = t.startsWith w := by
  unfold Text.startsWith
  induction w generalizing t with
  | nil => rfl
  | cons a w ih =>
      obtain ⟨ha, hw⟩ := List.ne_and_not_mem_of_not_mem_cons hw
      cases t with
      | nil =>
          have hdiffer : (a == e) = false := beq_eq_false_iff_ne.mpr (Ne.symm ha)
          rw [List.nil_append, List.isPrefixOf_cons_cons, hdiffer]
          rfl
      | cons r t =>
          rw [List.cons_append, List.isPrefixOf_cons_cons, List.isPrefixOf_cons_cons, ih hw t]

theorem scanScalar_append {e : Rune} (he : Ends e) (t z : Text) : (scanScalar (t ++ e :: z)).toOption =
    (scanScalar t).toOption.map fun found => (found.1, found.2 ++ e :: z) := by
  -- the rune is in no word, so the same word is found or none
  have hfind : words.find? (fun w => (t ++ e :: z).startsWith w.1) =
      words.find? fun w => t.startsWith w.1 :=
    List.find?_congr fun w hw => startsWith_append (he.2.2 w hw) t z
  unfold scanScalar
  rw [hfind]
  split
  next w v hword =>
    have hstarts : t.startsWith w = true :=
      List.find?_some (p := fun w : Text × Json => t.startsWith w.1) hword
    obtain ⟨tail, rfl⟩ := List.isPrefixOf_iff_prefix.mp hstarts
    rw [List.append_assoc, List.drop_left, List.drop_left]
    rfl
  next => exact scanNumber_append he t z

/-- A word or a number is read in front of such a rune as it is read in front of it anywhere else. -/
theorem bare_append {e : Rune} (he : Ends e) {t z rest : Text} {v : Json}
    (h : scanScalar (t ++ e :: z) = .ok (v, rest)) :
    ∃ tail, rest = tail ++ e :: z ∧
      ∀ z', scanScalar (t ++ e :: z') = .ok (v, tail ++ e :: z') := by
  have hread := scanScalar_append he t z
  rw [toOption_eq_some.mpr h] at hread
  obtain ⟨⟨w, tail⟩, hbare, hfound⟩ := Option.map_eq_some_iff.mp hread.symm
  cases hfound
  refine ⟨tail, rfl, fun z' => ?_⟩
  have hother := scanScalar_append he t z'
  rw [hbare] at hother
  exact toOption_eq_some.mp hother

/-- A word or a number is a piece in front of what follows it, and the piece alone says what it is. -/
theorem scanScalar_piece {t z : Text} {e : Rune} {v : Json} (h : scanScalar t = .ok (v, e :: z))
    (he : Ends e) : ∃ piece, piece ≠ [] ∧ t = piece ++ e :: z ∧
      ∀ z', scanScalar (piece ++ e :: z') = .ok (v, e :: z') := by
  obtain ⟨piece, rfl⟩ := scanScalar_suffix h
  obtain ⟨tail, hrest, hall⟩ := bare_append he h
  obtain rfl : tail = [] := List.self_eq_append_left.mp hrest
  refine ⟨piece, ?_, rfl, hall⟩
  rintro rfl
  have hnone := scanScalar_append he [] z
  rw [h] at hnone
  cases hnone

end RemoteModel.Json
