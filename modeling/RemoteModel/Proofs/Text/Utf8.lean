import RemoteModel.Proofs.Json.Shown
import RemoteModel.Text.Utf8

/-!
Reading undoes writing of UTF-8: the bytes of a text are read back as that text, and a character is
read from no bytes but those that spell it.
-/

namespace RemoteModel.Utf8

theorem toNat_toUInt8 {n : Nat} (hn : n < 0x100) : n.toUInt8.toNat = n := by
  rw [Nat.toUInt8, UInt8.toNat_ofNat']
  exact Nat.mod_eq_of_lt hn

theorem tails_succ {b : Nat} (hb : b < 0x40) (value read more : Nat) (rest : Bytes) :
    tails value read (more + 1) ((0x80 + b).toUInt8 :: rest) =
      tails (value * 0x40 + b) (read + 1) more rest := by
  rw [tails, toNat_toUInt8 (by omega), if_pos ⟨by omega, by omega⟩, Nat.add_sub_cancel_left]

/-- The byte after a lead byte may follow it: no character is spelt longer than it has to be, and none is
half of a pair. -/
def Leads (lead b more : Nat) : Prop :=
  ∃ low high, leadBounds lead = some (low, high, more) ∧ low ≤ 0x80 + b ∧ 0x80 + b ≤ high

theorem leads_two {n : Nat} (hlow : 0x80 ≤ n) (hhigh : n < 0x800) :
    Leads (0xC0 + n / 0x40) (n % 0x40) 0 :=
  ⟨_, _, if_pos (by omega), by omega, by omega⟩

theorem leads_three {n : Nat} (hlow : 0x800 ≤ n) (hhigh : n < 0x10000)
    (hvalid : n < 0xD800 ∨ 0xDFFF < n) : Leads (0xE0 + n / 0x1000) (n / 0x40 % 0x40) 1 := by
  unfold Leads leadBounds
  split_ifs
  all_goals first | omega | exact ⟨_, _, rfl, by omega, by omega⟩

theorem leads_four {n : Nat} (hlow : 0x10000 ≤ n) (hhigh : n < 0x110000) :
    Leads (0xF0 + n / 0x40000) (n / 0x1000 % 0x40) 2 := by
  unfold Leads leadBounds
  split_ifs
  all_goals first | omega | exact ⟨_, _, rfl, by omega, by omega⟩

theorem step_lead {lead b more : Nat} (hlead : 0x80 ≤ lead ∧ lead < 0x100) (hb : b < 0x40)
    (hleads : Leads lead b more) (rest : Bytes) :
    step lead.toUInt8 ((0x80 + b).toUInt8 :: rest) =
      tails (lead % (if more = 0 then 0x20 else if more = 1 then 0x10 else 0x08) * 0x40 + b) 2 more
        rest := by
  obtain ⟨low, high, hbounds, hlow, hhigh⟩ := hleads
  unfold step
  dsimp only
  rw [toNat_toUInt8 hlead.2, if_neg (by omega), hbounds]
  dsimp only
  rw [toNat_toUInt8 (by omega), if_pos ⟨hlow, hhigh⟩, Nat.add_sub_cancel_left]

theorem step_encodeScalar (c : Char) (tail : Bytes) :
    ∃ a more, encodeScalar c = a :: more ∧ step a (more ++ tail) = .char c (more.length + 1) := by
  have hvalid : c.toNat < 0xD800 ∨ 0xDFFF < c.toNat ∧ c.toNat < 0x110000 := c.valid
  have hread : Char.ofNat c.toNat = c := Char.ofNat_toNat c
  unfold encodeScalar
  dsimp only
  generalize c.toNat = n at hvalid hread ⊢
  by_cases hone : n < 0x80
  · rw [if_pos hone]
    refine ⟨_, _, rfl, ?_⟩
    unfold step
    dsimp only
    rw [toNat_toUInt8 (by omega), if_pos hone, hread]
    rfl
  rw [if_neg hone]
  by_cases htwo : n < 0x800
  · rw [if_pos htwo]
    refine ⟨_, _, rfl, ?_⟩
    rw [List.cons_append, step_lead (by omega) (by omega) (leads_two (by omega) htwo), if_pos rfl,
      tails, show (0xC0 + n / 0x40) % 0x20 * 0x40 + n % 0x40 = n by omega, hread]
    rfl
  rw [if_neg htwo]
  by_cases hthree : n < 0x10000
  · rw [if_pos hthree]
    refine ⟨_, _, rfl, ?_⟩
    rw [List.cons_append, List.cons_append,
      step_lead (by omega) (by omega) (leads_three (by omega) hthree (by omega)),
      if_neg (by decide), if_pos rfl, tails_succ (b := n % 0x40) (by omega), tails,
      show ((0xE0 + n / 0x1000) % 0x10 * 0x40 + n / 0x40 % 0x40) * 0x40 + n % 0x40 = n by omega, hread]
    rfl
  · rw [if_neg hthree]
    refine ⟨_, _, rfl, ?_⟩
    rw [List.cons_append, List.cons_append, List.cons_append,
      step_lead (by omega) (by omega) (leads_four (by omega) (by omega)),
      if_neg (by decide), if_neg (by decide), tails_succ (b := n / 0x40 % 0x40) (by omega),
      tails_succ (b := n % 0x40) (by omega), tails,
      show (((0xF0 + n / 0x40000) % 0x08 * 0x40 + n / 0x1000 % 0x40) * 0x40 + n / 0x40 % 0x40) * 0x40 +
        n % 0x40 = n by omega, hread]
    rfl

theorem toNat_ofNat_scalar {n : Nat} (h : n < 0xD800 ∨ 0xDFFF < n ∧ n < 0x110000) :
    (Char.ofNat n).toNat = n := by
  unfold Char.ofNat
  rw [dif_pos h]
  rfl

theorem toUInt8_eq {a : UInt8} {n : Nat} (h : n = a.toNat) : n.toUInt8 = a := by
  rw [h]
  exact UInt8.ofNat_toNat

def IsContinuation (b : UInt8) : Prop := 0x80 ≤ b.toNat ∧ b.toNat ≤ 0xBF

/-- The value of a character that is read with another byte. -/
def Joined (value : Nat) (b : UInt8) : Nat := value * 0x40 + (b.toNat - 0x80)

theorem encodeScalar_two {a b : UInt8} (ha : 0xC2 ≤ a.toNat ∧ a.toNat ≤ 0xDF)
    (hb : IsContinuation b) :
    encodeScalar (Char.ofNat (Joined (a.toNat % 0x20) b)) = [a, b] := by
  obtain ⟨hb, hb'⟩ := hb
  unfold encodeScalar Joined
  dsimp only
  rw [toNat_ofNat_scalar (by omega), if_neg (by omega), if_pos (by omega),
    toUInt8_eq (a := a) (by omega), toUInt8_eq (a := b) (by omega)]

theorem encodeScalar_three {a b c : UInt8} (ha : 0xE0 ≤ a.toNat ∧ a.toNat ≤ 0xEF)
    (hlow : a.toNat = 0xE0 → 0xA0 ≤ b.toNat) (hhigh : a.toNat = 0xED → b.toNat ≤ 0x9F)
    (hb : IsContinuation b) (hc : IsContinuation c) :
    encodeScalar (Char.ofNat (Joined (Joined (a.toNat % 0x10) b) c)) = [a, b, c] := by
  obtain ⟨hb, hb'⟩ := hb
  obtain ⟨hc, hc'⟩ := hc
  unfold encodeScalar Joined
  dsimp only
  rw [toNat_ofNat_scalar (by omega), if_neg (by omega), if_neg (by omega), if_pos (by omega),
    toUInt8_eq (a := a) (by omega), toUInt8_eq (a := b) (by omega), toUInt8_eq (a := c) (by omega)]

theorem encodeScalar_four {a b c d : UInt8} (ha : 0xF0 ≤ a.toNat ∧ a.toNat ≤ 0xF4)
    (hlow : a.toNat = 0xF0 → 0x90 ≤ b.toNat) (hhigh : a.toNat = 0xF4 → b.toNat ≤ 0x8F)
    (hb : IsContinuation b) (hc : IsContinuation c) (hd : IsContinuation d) :
    encodeScalar (Char.ofNat (Joined (Joined (Joined (a.toNat % 0x08) b) c) d)) = [a, b, c, d] := by
  obtain ⟨hb, hb'⟩ := hb
  obtain ⟨hc, hc'⟩ := hc
  obtain ⟨hd, hd'⟩ := hd
  unfold encodeScalar Joined
  dsimp only
  rw [toNat_ofNat_scalar (by omega), if_neg (by omega), if_neg (by omega), if_neg (by omega),
    toUInt8_eq (a := a) (by omega), toUInt8_eq (a := b) (by omega), toUInt8_eq (a := c) (by omega),
    toUInt8_eq (a := d) (by omega)]

/-- The continuation bytes that a character has been read with. -/
theorem continued_of_tails {value read more n : Nat} {rest : Bytes} {c : Char}
    (h : tails value read more rest = .char c n) :
    ∃ front tail, rest = front ++ tail ∧ front.length = more ∧ n = read + more ∧
      (∀ b ∈ front, IsContinuation b) ∧ c = Char.ofNat (front.foldl Joined value) := by
  induction more generalizing value read rest with
  | zero =>
      rw [tails] at h
      cases h
      exact ⟨[], rest, rfl, rfl, rfl, List.forall_mem_nil _, rfl⟩
  | succ more ih =>
      cases rest with
      | nil => cases h
      | cons b rest =>
          rw [tails] at h
          split at h
          next hb =>
            obtain ⟨front, tail, rfl, hlength, rfl, hfront, rfl⟩ := ih h
            refine ⟨b :: front, tail, rfl, congrArg (· + 1) hlength, by omega,
              List.forall_mem_cons.mpr ⟨hb, hfront⟩, ?_⟩
            exact congrArg Char.ofNat (List.foldl_cons ..).symm
          next => cases h

/-- The first two bytes of a character: no character is spelt longer than it has to be, and none is
half of a pair. -/
theorem lead_cases {lead low high more b : Nat} (h : leadBounds lead = some (low, high, more))
    (hlow : low ≤ b) (hhigh : b ≤ high) :
    (0x80 ≤ b ∧ b ≤ 0xBF) ∧
      (more = 0 ∧ (0xC2 ≤ lead ∧ lead ≤ 0xDF) ∨
        more = 1 ∧ (0xE0 ≤ lead ∧ lead ≤ 0xEF) ∧ (lead = 0xE0 → 0xA0 ≤ b) ∧ (lead = 0xED → b ≤ 0x9F) ∨
        more = 2 ∧ (0xF0 ≤ lead ∧ lead ≤ 0xF4) ∧ (lead = 0xF0 → 0x90 ≤ b) ∧
          (lead = 0xF4 → b ≤ 0x8F)) := by
  unfold leadBounds at h
  split_ifs at h
  all_goals
    cases h
    omega

/-- A character is read from no bytes but those that spell it. -/
theorem encodeScalar_of_step {a : UInt8} {rest : Bytes} {c : Char} {n : Nat}
    (h : step a rest = .char c n) :
    ∃ front tail, rest = front ++ tail ∧ n = front.length + 1 ∧ encodeScalar c = a :: front := by
  unfold step at h
  dsimp only at h
  split at h
  next hone =>
    cases h
    refine ⟨[], rest, rfl, rfl, ?_⟩
    unfold encodeScalar
    dsimp only
    rw [toNat_ofNat_scalar (by omega), if_pos hone, toUInt8_eq rfl]
  next =>
    split at h
    next => cases h
    next low high more hlead =>
      split at h
      next => cases h
      next b rest =>
        split at h
        next hb =>
          obtain ⟨front, tail, rfl, hlength, rfl, hfront, rfl⟩ := continued_of_tails h
          refine ⟨b :: front, tail, rfl, by rw [← hlength, List.length_cons]; omega, ?_⟩
          obtain ⟨hcont, ⟨rfl, ha⟩ | ⟨rfl, ha, hlow, hhigh⟩ | ⟨rfl, ha, hlow, hhigh⟩⟩ :=
            lead_cases hlead hb.1 hb.2
          · obtain rfl := List.length_eq_zero_iff.mp hlength
            exact encodeScalar_two ha hcont
          · obtain ⟨c, rfl⟩ := List.length_eq_one_iff.mp hlength
            exact encodeScalar_three ha hlow hhigh hcont (hfront c (by simp))
          · obtain ⟨c, d, rfl⟩ := List.length_eq_two.mp hlength
            exact encodeScalar_four ha hlow hhigh hcont (hfront c (by simp)) (hfront d (by simp))
        next => cases h

theorem decodeOnto_skip (acc : Text) (skipped tail : Bytes) :
    decodeOnto acc skipped.length (skipped ++ tail) = decodeOnto acc 0 tail := by
  induction skipped with
  | nil => rfl
  | cons b skipped ih => exact ih

theorem decodeOnto_encodeScalar (acc : Text) (c : Char) (tail : Bytes) :
    decodeOnto acc 0 (encodeScalar c ++ tail) = decodeOnto (.scalar c :: acc) 0 tail := by
  obtain ⟨a, more, hbytes, hstep⟩ := step_encodeScalar c tail
  rw [hbytes, List.cons_append, decodeOnto, hstep]
  exact decodeOnto_skip _ _ _

/-- The bytes of a text are read as the text. -/
theorem decodeReplacing_encode {t : Text} {bytes : Bytes} (hencode : encode? t = some bytes) :
    decodeReplacing bytes = t := by
  unfold encode? at hencode
  split at hencode
  next hformed =>
    cases hencode
    have hread (acc : Text) (write : Rune → Bytes) (hwrite : ∀ c, write (.scalar c) = encodeScalar c) :
        decodeOnto acc 0 (t.flatMap write) = acc.reverse ++ t := by
      induction t generalizing acc with
      | nil => exact (List.append_nil _).symm
      | cons r t ih =>
          rw [Text.isWellFormed_cons, Bool.and_eq_true] at hformed
          cases r with
          | half => cases hformed.1
          | scalar c =>
              rw [List.flatMap_cons, hwrite, decodeOnto_encodeScalar, ih hformed.2, List.reverse_cons,
                List.append_assoc]
              rfl
    exact hread [] _ fun _ => rfl
  next => cases hencode

end RemoteModel.Utf8
