import RemoteModel.Files.Name
import RemoteModel.Proofs.Text.Utf8

/-!
Names of files as bytes. A name is read from the bytes that it is written with, so two texts stand for
one name just if they are written with the same bytes.
-/

namespace RemoteModel.FileName

theorem bytes_append (s t : Text) : bytes (s ++ t) = bytes s ++ bytes t :=
  List.flatMap_append

theorem bytes_scalar (c : Char) (t : Text) :
    bytes (.scalar c :: t) = Utf8.encodeScalar c ++ bytes t := by
  have hone : Utf8.encodeLoose [.scalar c] = Utf8.encodeScalar c := List.append_nil _
  rw [bytes, List.flatMap_cons, byte?]
  dsimp only
  rw [hone]
  rfl

theorem toNat_ge_of_bad {a : UInt8} {rest : Bytes} {defect : Utf8.Defect} {n : Nat}
    (h : Utf8.step a rest = .bad defect n) : 0x80 ≤ a.toNat := by
  unfold Utf8.step at h
  dsimp only at h
  split at h
  next => cases h
  next hlead => exact Nat.not_lt.mp hlead

theorem byte?_ofCode {a : UInt8} (h : 0x80 ≤ a.toNat) :
    byte? (Rune.ofCode (0xDC00 + a.toNat)) = some a := by
  have ha := a.toNat_lt
  have hcode : 0xDC00 + a.toNat - 0xD800 = 0x400 + a.toNat := by omega
  unfold Rune.ofCode
  rw [dif_pos (by omega), byte?]
  dsimp only
  rw [if_pos (by omega), hcode, Nat.add_sub_cancel_left, Utf8.toUInt8_eq rfl]

theorem bytes_ofCode {a : UInt8} (h : 0x80 ≤ a.toNat) (t : Text) :
    bytes (Rune.ofCode (0xDC00 + a.toNat) :: t) = a :: bytes t := by
  rw [bytes, List.flatMap_cons, byte?_ofCode h]
  rfl

theorem bytes_read_drop (skip : Nat) (data : Bytes) : bytes (read skip data) = data.drop skip := by
  fun_induction read skip data with
  | case1 => exact List.drop_nil.symm
  | case2 a rest n ih => exact ih
  | case3 a rest c n hstep ih =>
      obtain ⟨front, tail, rfl, rfl, hspelt⟩ := Utf8.encodeScalar_of_step hstep
      rw [bytes_scalar, ih, hspelt, Nat.add_sub_cancel, List.drop_left, List.cons_append]
      rfl
  | case4 a rest defect n hstep ih => rw [bytes_ofCode (toNat_ge_of_bad hstep), ih]; rfl

/-- Bytes that are read are written again. -/
theorem bytes_read (data : Bytes) : bytes (read 0 data) = data := bytes_read_drop 0 data

theorem read_skip (skipped tail : Bytes) : read skipped.length (skipped ++ tail) = read 0 tail := by
  induction skipped with
  | nil => rfl
  | cons b skipped ih => exact ih

theorem read_encodeScalar (c : Char) (tail : Bytes) :
    read 0 (Utf8.encodeScalar c ++ tail) = .scalar c :: read 0 tail := by
  obtain ⟨a, more, hbytes, hstep⟩ := Utf8.step_encodeScalar c tail
  rw [hbytes, List.cons_append, read, hstep]
  exact congrArg _ (read_skip more tail)

theorem read_bytes {t : Text} (h : t.isWellFormed = true) : read 0 (bytes t) = t := by
  induction t with
  | nil => rfl
  | cons r t ih =>
      rw [Text.isWellFormed_cons, Bool.and_eq_true] at h
      cases r with
      | half => cases h.1
      | scalar c => rw [bytes_scalar, read_encodeScalar, ih h.2]

theorem settled_eq (t : Text) : settled t = read 0 (bytes t) := by
  unfold settled
  split
  next h => exact (read_bytes h).symm
  next => rfl

theorem bytes_settled (t : Text) : bytes (settled t) = bytes t := by
  rw [settled_eq, bytes_read]

/-- Two texts are one name just if they are written with the same bytes. -/
theorem settled_eq_iff {s t : Text} : settled s = settled t ↔ bytes s = bytes t := by
  constructor
  · intro h
    rw [← bytes_settled s, h, bytes_settled]
  · intro h
    rw [settled_eq, h, settled_eq]

theorem settled_of_isWellFormed {t : Text} (h : t.isWellFormed = true) : settled t = t := if_pos h

end RemoteModel.FileName
