import Mathlib.Data.List.Basic
import RemoteModel.Text.Rune

/-!
Numbers as runes: decimal digits name their number, and hexadecimal digits of a fixed width are read
one by one.
-/

namespace RemoteModel

theorem Rune.ofCode_code (r : Rune) : Rune.ofCode r.code = r := by
  cases r with
  | scalar c =>
      have hvalid : c.toNat < 0xD800 ∨ 0xDFFF < c.toNat ∧ c.toNat < 0x110000 := c.valid
      unfold Rune.ofCode Rune.code
      dsimp only
      rw [dif_neg (by omega), if_pos (by omega), Char.ofNat_toNat]
  | half u =>
      unfold Rune.ofCode Rune.code
      dsimp only
      rw [dif_pos (by omega)]
      have hcode : 0xD800 + u.val - 0xD800 = u.val := by omega
      exact congrArg Rune.half (Fin.ext hcode)

theorem Rune.code_ofCode {n : Nat} (hn : n < 0x110000) : (Rune.ofCode n).code = n := by
  unfold Rune.ofCode
  split
  next =>
    unfold Rune.code
    dsimp only
    omega
  next =>
    have hvalid : n.isValidChar := by
      unfold Nat.isValidChar
      omega
    unfold Rune.code Char.ofNat
    dsimp only
    rw [dif_pos hvalid]
    rfl

theorem Rune.code_lt (r : Rune) : r.code < 0x110000 := by
  cases r with
  | scalar c =>
      have hvalid : c.toNat < 0xD800 ∨ 0xDFFF < c.toNat ∧ c.toNat < 0x110000 := c.valid
      change c.toNat < _
      omega
  | half u =>
      change 0xD800 + u.val < _
      omega

namespace Text

theorem digit_of_mem_ofNat {n : Nat} {r : Rune} (h : r ∈ Text.ofNat n) :
    ∃ c : Char, r = .scalar c ∧ c.isDigit = true := by
  simp only [Text.ofNat, List.mem_map] at h
  obtain ⟨c, hc, rfl⟩ := h
  exact ⟨c, rfl, Nat.isDigit_of_mem_toDigits (by decide) (by decide) hc⟩

theorem ofNat_ne_nil (n : Nat) : Text.ofNat n ≠ [] := by
  simp [Text.ofNat, Nat.toDigits_ne_nil]

theorem ofNat_injective {m n : Nat} (h : Text.ofNat m = Text.ofNat n) : m = n := by
  have hdigits : Nat.toDigits 10 m = Nat.toDigits 10 n :=
    List.map_injective_iff.mpr (fun a b hab => Rune.scalar.inj hab) h
  have hread := congrArg (fun digits => Nat.ofDigitChars 10 digits 0) hdigits
  simpa only [Nat.ofDigitChars_ten_toDigits] using hread

theorem isDigit_of_mem_ofNat {n : Nat} {r : Rune} (h : r ∈ Text.ofNat n) : r.isDigit = true := by
  obtain ⟨c, rfl, hc⟩ := digit_of_mem_ofNat h
  simp only [Char.isDigit, Bool.and_eq_true, decide_eq_true_eq, ge_iff_le,
    UInt32.le_iff_toNat_le] at hc
  exact Bool.and_eq_true_iff.mpr ⟨decide_eq_true hc.1, decide_eq_true hc.2⟩

theorem ofNat_cons (n : Nat) : ∃ r tail, Text.ofNat n = r :: tail ∧ r.isDigit = true := by
  obtain ⟨r, tail, hdigits⟩ := List.exists_cons_of_ne_nil (ofNat_ne_nil n)
  exact ⟨r, tail, hdigits, isDigit_of_mem_ofNat (by rw [hdigits]; exact List.mem_cons_self)⟩

/-- A positive number is written without a leading nought. -/
theorem ofNat_head {n : Nat} (hn : 0 < n) : ∃ r tail, Text.ofNat n = r :: tail ∧ r ≠ .scalar '0' := by
  have hdigits : ∀ n < 10, 0 < n → Rune.scalar (Nat.digitChar n) ≠ .scalar '0' := by decide
  induction n using Nat.strongRecOn with
  | ind n ih =>
      unfold ofNat
      rw [Nat.toDigits_eq_if (by decide : 1 < 10)]
      split
      next hsmall => exact ⟨_, [], rfl, hdigits n hsmall hn⟩
      next hlarge =>
        obtain ⟨r, tail, hhead, hr⟩ := ih (n / 10) (by omega) (by omega)
        refine ⟨r, tail ++ [digit (n % 10)], ?_, hr⟩
        rw [List.map_append, show (Nat.toDigits 10 (n / 10)).map Rune.scalar = r :: tail from hhead]
        rfl

theorem hex_one {n : Nat} (hn : n < 16) : hex 1 n = [digit n] := by
  unfold hex
  rw [Nat.toDigits_of_lt_base hn]
  rfl

theorem hex_succ (width n : Nat) : hex (width + 2) n = hex (width + 1) (n / 16) ++ [digit (n % 16)] := by
  unfold hex
  dsimp only
  rw [Nat.toDigits_eq_if (by decide : 1 < 16)]
  split
  next hn =>
    rw [Nat.div_eq_of_lt hn, Nat.mod_eq_of_lt hn, Nat.toDigits_zero]
    simp only [List.map_cons, List.map_nil, List.length_cons, List.length_nil]
    rw [← List.replicate_succ']
    rfl
  next hn =>
    rw [List.map_append, List.length_append, List.append_assoc]
    congr 2
    simp only [List.length_map, List.map_cons, List.map_nil, List.length_cons, List.length_nil]
    omega

theorem hexValue_lt {r : Rune} {n : Nat} (h : r.hexValue? = some n) : n < 16 := by
  unfold Rune.hexValue? at h
  dsimp only at h
  split_ifs at h <;> cases h <;> omega

theorem hexValue_digit {n : Nat} (hn : n < 16) : (digit n).hexValue? = some n := by
  revert n
  decide

end Text

end RemoteModel
