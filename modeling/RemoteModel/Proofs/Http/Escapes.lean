import RemoteModel.Http.Target
import RemoteModel.Proofs.Files.Path
import RemoteModel.Proofs.Files.Found
import RemoteModel.Proofs.Http.Address
import RemoteModel.Proofs.Json.Shown
import RemoteModel.Proofs.Text.Utf8

/-!
Escapes in addresses. Where every percent sign starts an escape it stays so however the text is escaped once
more, and at a mark that belongs to no escape a text can be cut.
-/

namespace RemoteModel

namespace Percent

variable {keep : Rune → Bool} {r a b : Rune} {s t : Text}

/-! ### Texts in which every percent sign starts an escape -/

inductive Whole : Text → Prop
  | nil : Whole []
  | rune {r : Rune} {t : Text} : r ≠ mark → Whole t → Whole (r :: t)
  | escape {a b : Rune} {t : Text} : a.hexValue?.isSome → b.hexValue?.isSome → Whole t →
      Whole (mark :: a :: b :: t)

theorem Whole.append (hs : Whole s) (ht : Whole t) : Whole (s ++ t) := by
  induction hs with
  | nil => exact ht
  | rune hr _ ih => exact .rune hr ih
  | escape ha hb _ ih => exact .escape ha hb ih

theorem isSome_escaped_iff : (escaped? (r :: t)).isSome ↔
    r = mark ∧ ∃ a b rest, t = a :: b :: rest ∧ a.hexValue?.isSome ∧ b.hexValue?.isSome := by
  match t with
  | [] => simp [escaped?]
  | [a] => simp [escaped?]
  | a :: b :: rest =>
      simp only [escaped?]
      by_cases hr : r = mark
      · cases ha : a.hexValue? <;> cases hb : b.hexValue? <;> simp [hr, ha, hb]
      · simp [hr]

/-- A text is read rune by rune, but for escapes, which are read as a whole. -/
theorem escape_induction {motive : Text → Prop} (nil : motive [])
    (rune : ∀ r t, ¬(escaped? (r :: t)).isSome → motive t → motive (r :: t))
    (escape : ∀ a b t, a.hexValue?.isSome → b.hexValue?.isSome → motive t → motive (mark :: a :: b :: t))
    (t : Text) : motive t := by
  induction h : t.length using Nat.strongRecOn generalizing t with
  | ind n ih =>
      subst h
      cases t with
      | nil => exact nil
      | cons r t =>
          by_cases hescape : (escaped? (r :: t)).isSome
          · obtain ⟨rfl, a, b, rest, rfl, ha, hb⟩ := isSome_escaped_iff.mp hescape
            exact escape a b rest ha hb (ih rest.length (by simp only [List.length_cons]; omega) rest rfl)
          · exact rune r t hescape (ih t.length (by simp) t rfl)

theorem hex_ne_mark (ha : a.hexValue?.isSome) : a ≠ mark := by
  rintro rfl
  exact absurd ha (by decide)

theorem hex_unreserved (ha : a.hexValue?.isSome) : a.isAscii = true ∧ isUnreserved a = true := by
  have hcode : a.code < 0x80 ∧ (a.isAsciiLetter = true ∨ a.isDigit = true) := by
    unfold Rune.hexValue? at ha
    dsimp only at ha
    simp only [Rune.isAsciiLetter, Rune.isAsciiUpper, Rune.isAsciiLower, Rune.isDigit, Bool.or_eq_true,
      Bool.and_eq_true, decide_eq_true_eq]
    split_ifs at ha <;> first | omega | cases ha
  refine ⟨decide_eq_true hcode.1, ?_⟩
  rcases hcode.2 with hletter | hdigit <;> simp [isUnreserved, *]

theorem hexValue_digit {n : Nat} (hn : n < 16) : (digit n).hexValue?.isSome := by
  revert n
  decide

theorem whole_escape (b : UInt8) : Whole (escape b) :=
  have hlow := Nat.mod_lt b.toNat (by decide : 0 < 16)
  have hhigh : b.toNat / 16 < 16 := by
    have := b.toNat_lt
    omega
  .escape (hexValue_digit hhigh) (hexValue_digit hlow) .nil

/-! ### Escaping -/

theorem encode_append (keep : Rune → Bool) (a b : Bytes) :
    encode keep (a ++ b) = encode keep a ++ encode keep b :=
  List.flatMap_append

theorem whole_encode_byte (hmark : keep mark = false) (b : UInt8) : Whole (encode keep [b]) := by
  rw [encode, List.flatMap_singleton]
  dsimp only
  split
  next hkept =>
    refine .rune (fun hr => ?_) .nil
    rw [hr, hmark, Bool.and_false] at hkept
    cases hkept
  next => exact whole_escape b

theorem whole_encode (hmark : keep mark = false) (bytes : Bytes) : Whole (encode keep bytes) := by
  induction bytes with
  | nil => exact .nil
  | cons b bytes ih =>
      rw [← List.singleton_append, encode_append]
      exact (whole_encode_byte hmark b).append ih

theorem bytes_ascii (hr : r.isAscii = true) : Utf8.encodeLoose [r] = [r.code.toUInt8] := by
  cases r with
  | half u =>
      have hcode : 0xD800 + u.val < 0x80 := of_decide_eq_true hr
      omega
  | scalar c =>
      have hcode : c.toNat < 0x80 := of_decide_eq_true hr
      simp [Utf8.encodeLoose, Utf8.encodeScalar, hcode, Rune.code]

theorem bytes_far (hr : r.isAscii = false) : ∀ b ∈ Utf8.encodeLoose [r], ¬b.toNat < 0x80 := by
  have hbyte {n : Nat} (hlow : 0x80 ≤ n) (hhigh : n < 0x100) : ¬n.toUInt8.toNat < 0x80 := by
    rw [Utf8.toNat_toUInt8 hhigh]
    omega
  cases r with
  | half u =>
      simp only [Utf8.encodeLoose, List.flatMap_singleton, List.mem_cons, List.not_mem_nil, or_false]
      rintro b (rfl | rfl | rfl)
      · exact hbyte (by omega) (by omega)
      · exact hbyte (by omega) (by omega)
      · exact hbyte (by omega) (by omega)
  | scalar c =>
      have hcode : ¬c.toNat < 0x80 := of_decide_eq_false hr
      have hvalid := Rune.code_lt (.scalar c)
      have hvalid : c.toNat < 0x110000 := hvalid
      simp only [Utf8.encodeLoose, List.flatMap_singleton, Utf8.encodeScalar, if_neg hcode]
      split_ifs
      · simp only [List.mem_cons, List.not_mem_nil, or_false]
        rintro b (rfl | rfl)
        · exact hbyte (by omega) (by omega)
        · exact hbyte (by omega) (by omega)
      · simp only [List.mem_cons, List.not_mem_nil, or_false]
        rintro b (rfl | rfl | rfl)
        · exact hbyte (by omega) (by omega)
        · exact hbyte (by omega) (by omega)
        · exact hbyte (by omega) (by omega)
      · simp only [List.mem_cons, List.not_mem_nil, or_false]
        rintro b (rfl | rfl | rfl | rfl)
        · exact hbyte (by omega) (by omega)
        · exact hbyte (by omega) (by omega)
        · exact hbyte (by omega) (by omega)
        · exact hbyte (by omega) (by omega)

theorem encode_rune (keep : Rune → Bool) (r : Rune) : encode keep (Utf8.encodeLoose [r]) =
    if r.isAscii && keep r then [r] else (Utf8.encodeLoose [r]).flatMap escape := by
  cases hr : r.isAscii with
  | true =>
      have hcode : r.code < 0x80 := of_decide_eq_true hr
      rw [bytes_ascii hr, encode, List.flatMap_singleton, List.flatMap_singleton,
        Utf8.toNat_toUInt8 (by omega), Rune.ofCode_code]
      simp [hcode]
  | false =>
      rw [encode]
      refine List.flatMap_congr fun b hb => ?_
      simp [bytes_far hr b hb]

theorem whole_flatMap (bytes : Bytes) : Whole (bytes.flatMap escape) := by
  induction bytes with
  | nil => exact .nil
  | cons b bytes ih => exact (whole_escape b).append ih

theorem encodeLoose_cons (r : Rune) (t : Text) :
    Utf8.encodeLoose (r :: t) = Utf8.encodeLoose [r] ++ Utf8.encodeLoose t :=
  Utf8.encodeLoose_append [r] t

theorem encode_kept (hascii : r.isAscii = true) (hkeep : keep r = true) (t : Text) :
    encode keep (Utf8.encodeLoose (r :: t)) = r :: encode keep (Utf8.encodeLoose t) := by
  rw [encodeLoose_cons, encode_append, encode_rune, hascii, hkeep]
  rfl

/-- The escapes of a text outlast a further escaping that keeps percent signs and hexadecimal digits. -/
theorem Whole.encode (hkeep : ∀ r, isUnreserved r = true → keep r = true) (hmark : keep mark = true)
    (ht : Whole t) : Whole (encode keep (Utf8.encodeLoose t)) := by
  induction ht with
  | nil => exact .nil
  | rune hr _ ih =>
      rw [encodeLoose_cons, encode_append]
      refine Whole.append ?_ ih
      rw [encode_rune]
      split
      next => exact .rune hr .nil
      next => exact whole_flatMap _
  | escape ha hb _ ih =>
      obtain ⟨hascii, hplain⟩ := hex_unreserved ha
      obtain ⟨hascii', hplain'⟩ := hex_unreserved hb
      rw [encode_kept (by decide) hmark, encode_kept hascii (hkeep _ hplain),
        encode_kept hascii' (hkeep _ hplain')]
      exact .escape ha hb ih

end Percent

namespace Target

open Percent

variable {keep : Rune → Bool} {m : Rune} {s t front : Text}

/-- A digit of an escape as it is written after the escapes were raised. -/
def raised (r : Rune) : Rune := if r.isAsciiLower then Rune.ofCode (r.code - 0x20) else r

theorem hexValue_raised {r : Rune} (hr : r.hexValue?.isSome) : (raised r).hexValue?.isSome := by
  have hcodes : ∀ n < 0x80, (Rune.ofCode n).hexValue?.isSome → (raised (.ofCode n)).hexValue?.isSome := by
    decide +kernel
  have hcode : r.code < 0x80 := of_decide_eq_true (hex_unreserved hr).1
  have hraised := hcodes r.code hcode
  rw [Rune.ofCode_code] at hraised
  exact hraised hr

theorem raiseEscapes_rune {r : Rune} {t : Text} (h : ¬(escaped? (r :: t)).isSome) :
    raiseEscapes 0 (r :: t) = (r :: (raiseEscapes 0 t).1, (raiseEscapes 0 t).2) := by
  rw [raiseEscapes]
  exact if_neg h

theorem raiseEscapes_escape {a b : Rune} (ha : a.hexValue?.isSome) (hb : b.hexValue?.isSome) (t : Text) :
    raiseEscapes 0 (mark :: a :: b :: t) =
      (mark :: raised a :: raised b :: (raiseEscapes 0 t).1, (raiseEscapes 0 t).2 + 1) := by
  rw [raiseEscapes]
  exact if_pos (isSome_escaped_iff.mpr ⟨rfl, a, b, t, rfl, ha, hb⟩)

theorem raiseEscapes_count (t : Text) : (raiseEscapes 0 t).2 ≤ (raiseEscapes 0 t).1.count mark ∧
    ((raiseEscapes 0 t).2 = (raiseEscapes 0 t).1.count mark → Whole (raiseEscapes 0 t).1) := by
  induction t using escape_induction with
  | nil => exact ⟨Nat.le_refl 0, fun _ => .nil⟩
  | rune r t hescape ih =>
      rw [raiseEscapes_rune hescape]
      by_cases hr : r = mark
      · rw [hr, List.count_cons_self]
        exact ⟨by omega, fun heq => by omega⟩
      · rw [List.count_cons_of_ne hr]
        exact ⟨ih.1, fun heq => .rune hr (ih.2 heq)⟩
  | escape a b t ha hb ih =>
      have ha' := hexValue_raised ha
      have hb' := hexValue_raised hb
      rw [raiseEscapes_escape ha hb, List.count_cons_self, List.count_cons_of_ne (hex_ne_mark ha'),
        List.count_cons_of_ne (hex_ne_mark hb')]
      exact ⟨by omega, fun heq => .escape ha' hb' (ih.2 (by omega))⟩

theorem whole_escapeUnsafe (hkeep : ∀ r, isUnreserved r = true → keep r = true) (hmark : keep mark = false)
    (t : Text) : Whole (escapeUnsafe keep t) := by
  unfold escapeUnsafe
  dsimp only
  cases hcount : (raiseEscapes 0 t).2 == (raiseEscapes 0 t).1.count mark with
  | false =>
      apply whole_encode
      simp [hmark]
  | true =>
      refine Whole.encode (fun r hr => ?_) (by simp) ((raiseEscapes_count t).2 (beq_iff_eq.mp hcount))
      simp [hkeep r hr]

/-! ### Reading escapes -/

theorem plainEscapes_rune {r : Rune} (hr : r ≠ mark) (t : Text) :
    plainEscapes 0 (r :: t) = (plainEscapes 0 t).map (r :: ·) := by
  conv_lhs => unfold plainEscapes
  exact if_neg hr

/-- What stands for an escape that is read. -/
def readEscape (a b : Rune) : Text :=
  match escaped? [mark, a, b] with
  | some byte =>
      if isUnreserved (Rune.ofCode byte.toNat) then [Rune.ofCode byte.toNat] else [mark, a, b]
  | none => [mark, a, b]

theorem plainEscapes_escape {a b : Rune} (ha : a.hexValue?.isSome) (hb : b.hexValue?.isSome) (t : Text) :
    plainEscapes 0 (mark :: a :: b :: t) = (plainEscapes 0 t).map (readEscape a b ++ ·) := by
  have hsame : escaped? (mark :: a :: b :: t) = escaped? [mark, a, b] := rfl
  have hsome : (escaped? [mark, a, b]).isSome := isSome_escaped_iff.mpr ⟨rfl, a, b, [], rfl, ha, hb⟩
  obtain ⟨byte, hbyte⟩ := Option.isSome_iff_exists.mp hsome
  rw [plainEscapes, if_pos rfl, hsame, readEscape, hbyte]
  dsimp only
  split
  next => rfl
  next =>
    rw [plainEscapes_rune (hex_ne_mark ha), plainEscapes_rune (hex_ne_mark hb), Option.map_map,
      Option.map_map]
    rfl

theorem plainEscapes_whole (ht : Whole t) : ∃ plain, plainEscapes 0 t = some plain := by
  induction ht with
  | nil => exact ⟨[], rfl⟩
  | rune hr _ ih =>
      obtain ⟨plain, hplain⟩ := ih
      exact ⟨_, by rw [plainEscapes_rune hr, hplain]; rfl⟩
  | escape ha hb _ ih =>
      obtain ⟨plain, hplain⟩ := ih
      exact ⟨_, by rw [plainEscapes_escape ha hb, hplain]; rfl⟩

/-- Whether a text starts like the digits of an escape. -/
def startsDigits : Text → Bool
  | a :: b :: _ => (a.isAsciiLetter || a.isDigit) && (b.isAsciiLetter || b.isDigit)
  | _ => false

theorem plainEscapes_mark (h : escaped? (mark :: t) = none) : plainEscapes 0 (mark :: t) =
    if startsDigits t then none else (plainEscapes 0 t).map (mark :: ·) := by
  conv_lhs => unfold plainEscapes
  dsimp only
  rw [if_pos rfl, h]
  match t with
  | [] => rfl
  | [a] => rfl
  | a :: b :: rest => rfl

/-- A rune that starts no escape stays, unless it is a percent sign and escapes cannot be read. -/
theorem plainEscapes_cases {r : Rune} (h : ¬(escaped? (r :: t)).isSome) :
    plainEscapes 0 (r :: t) = (plainEscapes 0 t).map (r :: ·) ∨ plainEscapes 0 (r :: t) = none := by
  by_cases hr : r = mark
  · subst hr
    rw [plainEscapes_mark (by simpa using h)]
    split
    next => exact .inr rfl
    next => exact .inl rfl
  · exact .inl (plainEscapes_rune hr t)

theorem isWellFormed_plainEscapes (ht : t.isWellFormed = true) {plain : Text}
    (hplain : plainEscapes 0 t = some plain) : plain.isWellFormed = true := by
  induction t using escape_induction generalizing plain with
  | nil =>
      cases hplain
      rfl
  | rune r t hescape ih =>
      rw [Text.isWellFormed_cons, Bool.and_eq_true] at ht
      rcases plainEscapes_cases hescape with hread | hread
      · rw [hread, Option.map_eq_some_iff] at hplain
        obtain ⟨rest, hrest, rfl⟩ := hplain
        rw [Text.isWellFormed_cons, ht.1, ih ht.2 hrest]
        rfl
      · rw [hread] at hplain
        cases hplain
  | escape a b t ha hb ih =>
      simp only [Text.isWellFormed_cons, Bool.and_eq_true] at ht
      obtain ⟨hmark, ha', hb', ht⟩ := ht
      rw [plainEscapes_escape ha hb, Option.map_eq_some_iff] at hplain
      obtain ⟨rest, hrest, rfl⟩ := hplain
      have hread : (readEscape a b).isWellFormed = true := by
        unfold readEscape
        split
        next byte _ =>
          have hbytes : ∀ n < 0x100, (Rune.ofCode n).isScalar = true := by decide +kernel
          split
          next => simp [hbytes byte.toNat byte.toNat_lt]
          next => simp [hmark, ha', hb']
        next => simp [hmark, ha', hb']
      rw [Text.isWellFormed_append, hread, ih ht hrest]
      rfl

/-- At a mark that is no part of an escape a text is read in two. -/
theorem plainEscapes_cut (hmark : m ≠ mark) (hhex : m.hexValue? = none)
    (hplain : (m.isAsciiLetter || m.isDigit) = false) (s : Text) :
    ∃ read : Option Text, ∀ t, plainEscapes 0 (s ++ m :: t) =
      read.bind fun plain => (plainEscapes 0 t).map fun rest => plain ++ m :: rest := by
  induction s using escape_induction with
  | nil => exact ⟨some [], fun t => plainEscapes_rune hmark t⟩
  | escape a b s ha hb ih =>
      obtain ⟨read, hread⟩ := ih
      refine ⟨read.map (readEscape a b ++ ·), fun t => ?_⟩
      rw [List.cons_append, List.cons_append, List.cons_append, plainEscapes_escape ha hb, hread]
      cases read <;> cases plainEscapes 0 t <;> simp
  | rune r s hescape ih =>
      obtain ⟨read, hread⟩ := ih
      by_cases hr : r = mark
      · subst hr
        have hnone (t : Text) : escaped? (mark :: (s ++ m :: t)) = none := by
          rw [← Option.not_isSome_iff_eq_none, isSome_escaped_iff]
          rintro ⟨-, a, b, rest, heq, ha, hb⟩
          match s with
          | [] =>
              cases heq
              rw [hhex] at ha
              cases ha
          | [c] =>
              cases heq
              rw [hhex] at hb
              cases hb
          | c :: d :: s =>
              cases heq
              exact hescape (isSome_escaped_iff.mpr ⟨rfl, _, _, s, rfl, ha, hb⟩)
        have hdigits (t : Text) : startsDigits (s ++ m :: t) = startsDigits s := by
          match s with
          | [] => cases t <;> simp [startsDigits, hplain]
          | [c] => simp [startsDigits, hplain]
          | c :: d :: s => rfl
        refine ⟨if startsDigits s then none else read.map (mark :: ·), fun t => ?_⟩
        rw [List.cons_append, plainEscapes_mark (hnone t), hdigits, hread]
        cases startsDigits s <;> cases read <;> cases plainEscapes 0 t <;> simp
      · refine ⟨read.map (r :: ·), fun t => ?_⟩
        rw [List.cons_append, plainEscapes_rune hr, hread]
        cases read <;> cases plainEscapes 0 t <;> simp

/-! ### Addresses as a whole -/

theorem encode_of_wellFormed (ht : t.isWellFormed = true) : Text.encode t = .ok (Utf8.encodeLoose t) := by
  rw [Text.encode, Utf8.encode?, if_pos ht]
  refine congrArg Except.ok (List.flatMap_congr fun r hr => ?_)
  have hscalar := Text.isWellFormed_iff.mp ht r hr
  cases r with
  | scalar => rfl
  | half => cases hscalar

/-- Runes that stand for themselves in every part of an address. -/
def Stands (r : Rune) : Prop := r ≠ mark ∧ r.isAscii = true ∧ keepsInAll r = true

instance (r : Rune) : Decidable (Stands r) := inferInstanceAs (Decidable (_ ∧ _ ∧ _))

/-- Bytes of an address in their final form. -/
def formOf (plain : Option Text) (t : Text) : Text :=
  match plain with
  | some plain => Percent.encode (fun r => keepsInAll r || r = mark) (Utf8.encodeLoose plain)
  | none => Percent.encode keepsInAll (Utf8.encodeLoose t)

theorem escapeAll_of_wellFormed (ht : t.isWellFormed = true) :
    escapeAll t = .ok (formOf (plainEscapes 0 t) t) := by
  unfold escapeAll formOf
  cases hplain : plainEscapes 0 t with
  | none =>
      dsimp only
      rw [encode_of_wellFormed ht]
      rfl
  | some plain =>
      dsimp only
      rw [encode_of_wellFormed (isWellFormed_plainEscapes ht hplain)]
      rfl

theorem plainEscapes_stands (hs : ∀ r ∈ s, Stands r) (t : Text) :
    plainEscapes 0 (s ++ t) = (plainEscapes 0 t).map (s ++ ·) := by
  induction s with
  | nil => simp
  | cons r s ih =>
      rw [List.cons_append, plainEscapes_rune (hs r List.mem_cons_self).1,
        ih fun q hq => hs q (List.mem_cons_of_mem _ hq), Option.map_map]
      rfl

theorem encode_stands (hs : ∀ r ∈ s, Stands r) (hkeep : ∀ r, keepsInAll r = true → keep r = true) (t : Text) :
    Percent.encode keep (Utf8.encodeLoose (s ++ t)) = s ++ Percent.encode keep (Utf8.encodeLoose t) := by
  induction s with
  | nil => rfl
  | cons r s ih =>
      obtain ⟨-, hascii, hkept⟩ := hs r List.mem_cons_self
      rw [List.cons_append, encode_kept hascii (hkeep r hkept),
        ih fun q hq => hs q (List.mem_cons_of_mem _ hq)]
      rfl

theorem formOf_stands (hs : ∀ r ∈ s, Stands r) (t : Text) :
    formOf (plainEscapes 0 (s ++ t)) (s ++ t) = s ++ formOf (plainEscapes 0 t) t := by
  rw [plainEscapes_stands hs]
  unfold formOf
  cases plainEscapes 0 t with
  | none => exact encode_stands hs (fun r hr => hr) t
  | some plain => exact encode_stands hs (fun r hr => by simp [hr]) plain

/-- An address has a beginning that does not depend on what stands behind a mark. -/
theorem formOf_cut (hstands : Stands m) (hhex : m.hexValue? = none)
    (hplain : (m.isAsciiLetter || m.isDigit) = false) (s : Text) :
    ∃ front, ∀ t, Whole t → ∃ back,
      formOf (plainEscapes 0 (s ++ m :: t)) (s ++ m :: t) = front ++ m :: back := by
  obtain ⟨read, hread⟩ := plainEscapes_cut hstands.1 hhex hplain s
  have hm : ∀ r ∈ [m], Stands r := by simpa using hstands
  cases read with
  | none =>
      refine ⟨Percent.encode keepsInAll (Utf8.encodeLoose s), fun t _ =>
        ⟨Percent.encode keepsInAll (Utf8.encodeLoose t), ?_⟩⟩
      rw [hread, Option.bind_none, formOf, Utf8.encodeLoose_append, encode_append]
      congr 1
      exact encode_stands hm (fun r hr => hr) t
  | some plain =>
      refine ⟨Percent.encode (fun r => keepsInAll r || r = mark) (Utf8.encodeLoose plain), fun t ht => ?_⟩
      obtain ⟨rest, hrest⟩ := plainEscapes_whole ht
      refine ⟨Percent.encode (fun r => keepsInAll r || r = mark) (Utf8.encodeLoose rest), ?_⟩
      rw [hread, hrest, Option.bind_some, Option.map_some, formOf, Utf8.encodeLoose_append, encode_append]
      congr 1
      exact encode_stands hm (fun r hr => by simp [hr]) rest

theorem mem_encode {keep : Rune → Bool} {bytes : Bytes} {r : Rune} (hr : r ∈ Percent.encode keep bytes) :
    (∃ n < 0x80, r = .ofCode n ∧ keep r = true) ∨ r = mark ∨ ∃ n < 16, r = digit n := by
  obtain ⟨b, -, hr⟩ := List.mem_flatMap.mp hr
  dsimp only at hr
  split at hr
  next hcond =>
    rw [Bool.and_eq_true, decide_eq_true_eq] at hcond
    obtain rfl := List.mem_singleton.mp hr
    exact .inl ⟨_, hcond.1, rfl, hcond.2⟩
  next =>
    have hbyte := b.toNat_lt
    simp only [escape, List.mem_cons, List.not_mem_nil, or_false] at hr
    rcases hr with rfl | rfl | rfl
    · exact .inr (.inl rfl)
    · exact .inr (.inr ⟨_, by omega, rfl⟩)
    · exact .inr (.inr ⟨_, by omega, rfl⟩)

theorem plain_of_mem_formOf (plain : Option Text) (t : Text) :
    ∀ r ∈ formOf plain t, Address.IsPlain r ∧ r ≠ .scalar ' ' := by
  have hkept : ∀ n < 0x80, keepsInAll (.ofCode n) = true ∨ Rune.ofCode n = mark →
      Address.IsPlain (.ofCode n) ∧ Rune.ofCode n ≠ .scalar ' ' := by decide +kernel
  have hdigit : ∀ n < 16, Address.IsPlain (digit n) ∧ digit n ≠ .scalar ' ' := by decide
  have hall (keep : Rune → Bool) (hkeep : ∀ r, keep r = true → keepsInAll r = true ∨ r = mark)
      (bytes : Bytes) :
      ∀ r ∈ Percent.encode keep bytes, Address.IsPlain r ∧ r ≠ .scalar ' ' := by
    intro r hr
    rcases mem_encode hr with ⟨n, hn, rfl, hr⟩ | rfl | ⟨n, hn, rfl⟩
    · exact hkept n hn (hkeep _ hr)
    · exact ⟨by decide, by decide⟩
    · exact hdigit n hn
  unfold formOf
  cases plain with
  | none => exact hall _ (fun r hr => .inl hr) _
  | some plain => exact hall _ (fun r hr => by simpa using hr) _

end Target

end RemoteModel
