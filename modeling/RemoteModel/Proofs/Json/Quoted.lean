import Mathlib.Data.List.TakeDrop
import RemoteModel.Json.Parser
import RemoteModel.Json.Printer
import RemoteModel.Proofs.Text.Digits

/-!
Quoted text. A text within quotes is a row of spellings, each of one rune, and what a quoted text is read
as depends on nothing behind its closing quote. Whatever text is written comes back, but for halves of
surrogate pairs that stand side by side: they are read as the character they make up.
-/

namespace RemoteModel.Json

/-- What escapes spell a rune depends on whether the lower half of a pair follows: `next` is what stands
behind the spelling, up to the closing quote. -/
inductive Spelt : Rune → Text → Text → Prop
  | itself {r : Rune} {next : Text} : r.code ≠ 0x22 → r.code ≠ 0x5C → 0x20 ≤ r.code → Spelt r [r] next
  | letter {s r : Rune} {next : Text} : simpleEscape s = some r → Spelt r [.scalar '\\', s] next
  | code {a b c d : Rune} {n : Nat} {next : Text} : hexQuad? a b c d = some n →
      (isHigh n = true → ∀ rest, lowHalf? (next ++ .scalar '"' :: rest) = some none) →
      Spelt (Rune.ofCode n) [.scalar '\\', .scalar 'u', a, b, c, d] next
  | pair {a b c d a' b' c' d' : Rune} {high low : Nat} {next : Text} :
      hexQuad? a b c d = some high → hexQuad? a' b' c' d' = some low → isHigh high = true →
      isLow low = true → Spelt (Rune.ofCode (joinPair high low))
        [.scalar '\\', .scalar 'u', a, b, c, d, .scalar '\\', .scalar 'u', a', b', c', d'] next

/-- A row of spellings and the text it stands for. -/
inductive Spells : Text → Text → Prop
  | nil : Spells [] []
  | cons {r : Rune} {spelling body t : Text} : Spelt r spelling body → Spells body t →
      Spells (spelling ++ body) (r :: t)

theorem hexQuad_lt {a b c d : Rune} {n : Nat} (h : hexQuad? a b c d = some n) : n < 0x10000 := by
  unfold hexQuad? at h
  split at h
  next ha hb hc hd =>
    cases h
    have ha := Text.hexValue_lt ha
    have hb := Text.hexValue_lt hb
    have hc := Text.hexValue_lt hc
    have hd := Text.hexValue_lt hd
    omega
  next => cases h

theorem not_mem_hexQuad {a b c d r : Rune} {n : Nat} (h : hexQuad? a b c d = some n)
    (hr : r.hexValue? = none) : r ∉ [a, b, c, d] := by
  have hdigit {s : Rune} {m : Nat} (hs : s.hexValue? = some m) : r ≠ s := fun heq => by
    rw [← heq, hr] at hs
    cases hs
  unfold hexQuad? at h
  split at h
  next ha hb hc hd => simp [hdigit ha, hdigit hb, hdigit hc, hdigit hd]
  next => cases h

theorem not_isLow_of_isHigh {n : Nat} (h : isHigh n = true) : isLow n = false := by
  unfold isHigh at h
  unfold isLow
  simp only [Bool.and_eq_true, decide_eq_true_eq] at h
  simp only [Bool.and_eq_false_iff, decide_eq_false_iff_not]
  omega

theorem scanString_skip (acc skipped tail : Text) :
    scanString acc skipped.length (skipped ++ tail) = scanString acc 0 tail := by
  induction skipped with
  | nil => rfl
  | cons r skipped ih => exact ih

theorem stringStep_unicode (tail : Text) :
    stringStep (.scalar '\\') (.scalar 'u' :: tail) = unicodeStep tail := by
  unfold stringStep
  rw [if_neg (by decide), if_pos rfl]
  rfl

theorem unicodeStep_lone {a b c d e : Rune} {n : Nat} {tail : Text}
    (hquad : hexQuad? a b c d = some n)
    (hlone : isHigh n = true → lowHalf? (e :: tail) = some none) :
    unicodeStep (a :: b :: c :: d :: e :: tail) = .rune (Rune.ofCode n) 5 := by
  unfold unicodeStep
  dsimp only
  rw [hquad]
  dsimp only
  cases hhigh : isHigh n with
  | false => rfl
  | true =>
      rw [hlone hhigh]
      rfl

theorem lowHalf_of_code {a b c d e : Rune} {n : Nat} (hquad : hexQuad? a b c d = some n)
    (tail : Text) : lowHalf? (.scalar '\\' :: .scalar 'u' :: a :: b :: c :: d :: e :: tail) =
      some (if isLow n then some n else none) := by
  simp only [lowHalf?, hquad]

theorem lowHalf_of_ne {s : Rune} (hs : s ≠ .scalar '\\') (tail : Text) :
    lowHalf? (s :: tail) = some none := by
  unfold lowHalf?
  split
  next heq => exact absurd (List.cons.inj heq).1 hs
  next => rfl

theorem lowHalf_of_letter {s : Rune} (hs : s ≠ .scalar 'u') (tail : Text) :
    lowHalf? (.scalar '\\' :: s :: tail) = some none := by
  unfold lowHalf?
  split
  next heq => exact absurd (List.cons.inj (List.cons.inj heq).2).1 hs
  next => rfl

theorem lowHalf_eq_some {t : Text} {low : Nat} (h : lowHalf? t = some (some low)) :
    ∃ a b c d e tail, t = .scalar '\\' :: .scalar 'u' :: a :: b :: c :: d :: e :: tail ∧
      hexQuad? a b c d = some low ∧ isLow low = true := by
  unfold lowHalf? at h
  split at h
  next a b c d e tail =>
    split at h
    next => cases h
    next n hquad =>
      cases hlow : isLow n with
      | false =>
          rw [hlow] at h
          cases h
      | true =>
          rw [hlow] at h
          cases h
          exact ⟨a, b, c, d, e, tail, rfl, hquad, hlow⟩
  next => cases h

theorem unicodeStep_pair {a b c d a' b' c' d' e : Rune} {high low : Nat}
    (hquad : hexQuad? a b c d = some high) (hquad' : hexQuad? a' b' c' d' = some low)
    (hhigh : isHigh high = true) (hlow : isLow low = true) (tail : Text) :
    unicodeStep (a :: b :: c :: d :: .scalar '\\' :: .scalar 'u' :: a' :: b' :: c' :: d' :: e ::
      tail) = .rune (Rune.ofCode (joinPair high low)) 11 := by
  unfold unicodeStep
  dsimp only
  rw [hquad]
  dsimp only
  rw [hhigh, lowHalf_of_code hquad', hlow]
  rfl

theorem stringStep_plain {r : Rune} (hquote : r.code ≠ 0x22) (hslash : r.code ≠ 0x5C)
    (hblank : 0x20 ≤ r.code) (tail : Text) : stringStep r tail = .rune r 0 := by
  unfold stringStep
  rw [if_neg fun h => hquote (congrArg Rune.code h), if_neg fun h => hslash (congrArg Rune.code h),
    if_neg (by omega)]

theorem simpleEscape_ne_u {s r : Rune} (h : simpleEscape s = some r) : s ≠ .scalar 'u' := by
  rintro rfl
  cases h

theorem stringStep_letter {s r : Rune} (hletter : simpleEscape s = some r) (tail : Text) :
    stringStep (.scalar '\\') (s :: tail) = .rune r 1 := by
  unfold stringStep
  rw [if_neg (by decide), if_pos rfl]
  split
  next heq => cases heq
  next heq => exact absurd (List.cons.inj heq).1 (simpleEscape_ne_u hletter)
  next heq =>
    cases heq
    rw [hletter]

theorem Spelt.step {r : Rune} {spelling next : Text} (h : Spelt r spelling next) (rest : Text) :
    ∃ s more, spelling = s :: more ∧
      stringStep s (more ++ (next ++ .scalar '"' :: rest)) = .rune r more.length := by
  -- an escape by code is only taken where a further rune follows it
  obtain ⟨e, tail, htail⟩ := List.exists_cons_of_ne_nil
    (show next ++ .scalar '"' :: rest ≠ [] by simp)
  cases h with
  | itself hquote hslash hblank => exact ⟨r, [], rfl, stringStep_plain hquote hslash hblank _⟩
  | letter hletter => exact ⟨_, [_], rfl, stringStep_letter hletter _⟩
  | @code a b c d n _ hquad hlow =>
      refine ⟨_, [.scalar 'u', a, b, c, d], rfl, (stringStep_unicode _).trans ?_⟩
      have hlone := fun hhigh => hlow hhigh rest
      rw [htail] at hlone ⊢
      exact unicodeStep_lone hquad hlone
  | pair hquad hquad' hhigh hlow =>
      refine ⟨_, [_, _, _, _, _, _, _, _, _, _, _], rfl, (stringStep_unicode _).trans ?_⟩
      rw [htail]
      exact unicodeStep_pair hquad hquad' hhigh hlow tail

theorem Spells.scan {body t : Text} (h : Spells body t) (acc rest : Text) :
    scanString acc 0 (body ++ .scalar '"' :: rest) = .ok (acc.reverse ++ t, rest) := by
  induction h generalizing acc with
  | nil =>
      rw [List.append_nil]
      rfl
  | @cons r spelling body t hspelt _ ih =>
      obtain ⟨s, more, rfl, hstep⟩ := hspelt.step rest
      rw [List.append_assoc, List.cons_append, scanString, hstep]
      dsimp only
      rw [scanString_skip, ih, List.reverse_cons, List.append_assoc]
      rfl

/-- The lower half that a row of spellings begins with does not depend on what follows the quote. -/
theorem Spelt.lowHalf {r : Rune} {spelling next : Text} (h : Spelt r spelling next) :
    ∃ low, (isLow r.code = false → low = none) ∧
      ∀ rest, lowHalf? (spelling ++ (next ++ .scalar '"' :: rest)) = some low := by
  cases h with
  | itself _ hslash _ =>
      exact ⟨none, fun _ => rfl, fun rest => lowHalf_of_ne (fun h => hslash (congrArg Rune.code h)) _⟩
  | letter hletter =>
      exact ⟨none, fun _ => rfl, fun rest => lowHalf_of_letter (simpleEscape_ne_u hletter) _⟩
  | @code a b c d n _ hquad _ =>
      refine ⟨if isLow n then some n else none, fun hlow => ?_, fun rest => ?_⟩
      · rw [Rune.code_ofCode (Nat.lt_trans (hexQuad_lt hquad) (by decide))] at hlow
        rw [hlow]
        rfl
      · obtain ⟨e, tail, htail⟩ := List.exists_cons_of_ne_nil
          (show next ++ .scalar '"' :: rest ≠ [] by simp)
        rw [htail]
        exact lowHalf_of_code hquad tail
  | pair hquad _ hhigh _ =>
      refine ⟨none, fun _ => rfl, fun rest => ?_⟩
      refine (lowHalf_of_code hquad _).trans ?_
      rw [not_isLow_of_isHigh hhigh]
      rfl

theorem Spells.lowHalf {body t : Text} (h : Spells body t) :
    ∃ low, ∀ rest, lowHalf? (body ++ .scalar '"' :: rest) = some low := by
  cases h with
  | nil => exact ⟨none, fun _ => rfl⟩
  | cons hspelt _ =>
      obtain ⟨low, _, hlow⟩ := hspelt.lowHalf
      exact ⟨low, fun rest => by rw [List.append_assoc, hlow]⟩

theorem scanString_drop {acc : Text} {skip : Nat} {t : Text} {found : Text × Text}
    (h : scanString acc skip t = .ok found) :
    ∃ skipped tail, t = skipped ++ tail ∧ skipped.length = skip ∧ scanString acc 0 tail = .ok found := by
  induction skip generalizing t with
  | zero => exact ⟨[], t, rfl, rfl, h⟩
  | succ k ih =>
      cases t with
      | nil => cases h
      | cons r t =>
          obtain ⟨skipped, tail, rfl, rfl, hfound⟩ := ih h
          exact ⟨r :: skipped, tail, rfl, rfl, hfound⟩

/-- The escapes by code: one that stands alone, and the two of a pair. -/
theorem unicodeStep_cases {t : Text} {r : Rune} {k : Nat} (h : unicodeStep t = .rune r k) :
    ∃ a b c d n tail, hexQuad? a b c d = some n ∧ t = a :: b :: c :: d :: tail ∧
      (k = 5 ∧ r = Rune.ofCode n ∧ (isHigh n = true → lowHalf? tail = some none) ∨
        ∃ a' b' c' d' low tail', k = 11 ∧ r = Rune.ofCode (joinPair n low) ∧ isHigh n = true ∧
          hexQuad? a' b' c' d' = some low ∧ isLow low = true ∧
          tail = .scalar '\\' :: .scalar 'u' :: a' :: b' :: c' :: d' :: tail') := by
  unfold unicodeStep at h
  split at h
  next a b c d e tail =>
    split at h
    next => cases h
    next n hquad =>
      refine ⟨a, b, c, d, n, e :: tail, hquad, rfl, ?_⟩
      cases hhigh : isHigh n with
      | false =>
          rw [hhigh] at h
          cases h
          exact .inl ⟨rfl, rfl, nofun⟩
      | true =>
          rw [hhigh, if_pos rfl] at h
          split at h
          next => cases h
          next hlone =>
            cases h
            exact .inl ⟨rfl, rfl, fun _ => hlone⟩
          next low hlow =>
            obtain ⟨rfl, rfl⟩ := StringStep.rune.inj h
            obtain ⟨a', b', c', d', e', tail', htail, hquad', hlow⟩ := lowHalf_eq_some hlow
            exact .inr ⟨a', b', c', d', low, e' :: tail', rfl, rfl, rfl, hquad', hlow, htail⟩
  next => cases h

/-- A step that finds a rune reads a spelling of it. -/
theorem spelt_of_step {r s : Rune} {skipped body t rest : Text}
    (hstep : stringStep r (skipped ++ (body ++ .scalar '"' :: rest)) = .rune s skipped.length)
    (hbody : Spells body t) : Spelt s (r :: skipped) body := by
  generalize htail : body ++ .scalar '"' :: rest = tail at hstep
  unfold stringStep at hstep
  split at hstep
  next => cases hstep
  next hquote =>
    split at hstep
    next hslash =>
      split at hstep
      next => cases hstep
      next more hmore =>
        obtain ⟨a, b, c, d, n, tail', hquad, rfl, hcases⟩ := unicodeStep_cases hstep
        subst hslash
        rcases hcases with ⟨hlength, rfl, hlone⟩ | ⟨a', b', c', d', low, tail'', hlength, hrune, hhigh,
          hquad', hlow, rfl⟩
        · obtain ⟨rfl, rfl⟩ := List.append_inj
            (show skipped ++ tail = [.scalar 'u', a, b, c, d] ++ tail' from hmore) hlength
          refine .code hquad fun hhigh rest' => ?_
          -- that no lower half followed is a matter of the row, not of what is behind the quote
          obtain ⟨low, hlow⟩ := hbody.lowHalf
          rw [hlow rest', ← hlow rest, htail, hlone hhigh]
        · obtain ⟨rfl, -⟩ := List.append_inj
            (show skipped ++ tail = [.scalar 'u', a, b, c, d, .scalar '\\', .scalar 'u', a', b', c',
              d'] ++ tail'' from hmore) hlength
          rw [hrune]
          exact .pair hquad hquad' hhigh hlow
      next x more hx hmore =>
        subst hslash
        split at hstep
        next y hletter =>
          obtain ⟨rfl, hlength⟩ := StringStep.rune.inj hstep
          obtain ⟨rfl, -⟩ := List.append_inj (show skipped ++ tail = [x] ++ more from hmore)
            hlength.symm
          exact .letter hletter
        next => cases hstep
    next hslash =>
      split at hstep
      next => cases hstep
      next hblank =>
        obtain ⟨rfl, hlength⟩ := StringStep.rune.inj hstep
        obtain rfl : skipped = [] := List.eq_nil_of_length_eq_zero hlength.symm
        refine .itself (fun h => hquote ?_) (fun h => hslash ?_) (by omega)
        · rw [← Rune.ofCode_code r, h]
          rfl
        · rw [← Rune.ofCode_code r, h]
          rfl

theorem unicodeStep_ne_close (t : Text) : unicodeStep t ≠ .close := by
  unfold unicodeStep
  split
  next =>
    split
    next => nofun
    next =>
      split
      next => split <;> nofun
      next => nofun
  next => nofun

theorem stringStep_close {r : Rune} {rest : Text} (h : stringStep r rest = .close) :
    r = .scalar '"' := by
  unfold stringStep at h
  split at h
  next hquote => exact hquote
  next =>
    split at h
    next =>
      split at h
      next => cases h
      next => exact absurd h (unicodeStep_ne_close _)
      next => split at h <;> cases h
    next => split at h <;> cases h

theorem spells_of_scan {acc t found rest : Text} (h : scanString acc 0 t = .ok (found, rest)) :
    ∃ body s, t = body ++ .scalar '"' :: rest ∧ found = acc.reverse ++ s ∧ Spells body s := by
  -- a step looks ahead, so what it spells is known only when the row behind it is
  induction hlength : t.length using Nat.strongRecOn generalizing t acc with
  | ind length ih =>
      cases t with
      | nil => cases h
      | cons r t =>
          rw [scanString] at h
          split at h
          next hclose =>
            obtain rfl := stringStep_close hclose
            cases h
            exact ⟨[], [], rfl, (List.append_nil _).symm, .nil⟩
          next s more hstep =>
            obtain ⟨skipped, tail, rfl, rfl, hfound⟩ := scanString_drop h
            obtain ⟨body, u, rfl, rfl, hspells⟩ := ih tail.length (by
              rw [← hlength, List.length_cons, List.length_append]
              omega) hfound rfl
            exact ⟨r :: skipped ++ body, s :: u, by simp, by simp,
              .cons (spelt_of_step hstep hspells) hspells⟩
          next => cases h
          next => cases h

/-- What is read of a quoted text is spelt in front of its closing quote. -/
theorem spells_of_scanQuoted {t found rest : Text} (h : scanQuoted t = .ok (found, rest)) :
    ∃ body, t = body ++ .scalar '"' :: rest ∧ Spells body found := by
  unfold scanQuoted at h
  split at h
  next hscan =>
    cases h
    obtain ⟨body, s, rfl, rfl, hspells⟩ := spells_of_scan hscan
    exact ⟨body, rfl, hspells⟩
  next => cases h
  next => cases h

theorem Spells.scanQuoted {body t : Text} (h : Spells body t) (rest : Text) :
    scanQuoted (body ++ .scalar '"' :: rest) = .ok (t, rest) := by
  unfold Json.scanQuoted
  rw [h.scan]
  rfl

theorem hex_four {n : Nat} (hn : n < 0x10000) :
    ∃ a b c d, Text.hex 4 n = [a, b, c, d] ∧ hexQuad? a b c d = some n := by
  refine ⟨Text.digit (n / 16 / 16 / 16), Text.digit (n / 16 / 16 % 16), Text.digit (n / 16 % 16),
    Text.digit (n % 16), ?_, ?_⟩
  · rw [Text.hex_succ, Text.hex_succ, Text.hex_succ, Text.hex_one (by omega)]
    rfl
  · unfold hexQuad?
    rw [Text.hexValue_digit (by omega), Text.hexValue_digit (by omega),
      Text.hexValue_digit (by omega), Text.hexValue_digit (by omega)]
    exact congrArg some (by omega)

theorem eq_of_code {r : Rune} {n : Nat} (hcode : r.code = n) : r = Rune.ofCode n := by
  rw [← hcode, Rune.ofCode_code]

/-- The ways in which a rune is written: as itself, by a letter behind a backslash, by its code, or by
the codes of a surrogate pair. -/
inductive Escape (r : Rune) : Text → Prop
  | itself : r.code ≠ 0x22 → r.code ≠ 0x5C → 0x20 ≤ r.code → Escape r [r]
  | letter {s : Rune} : simpleEscape s = some r → Escape r [.scalar '\\', s]
  | code : r.code < 0x10000 → Escape r (unicodeEscape r.code)
  | pair : 0x10000 ≤ r.code → Escape r (unicodeEscape (0xD800 + (r.code - 0x10000) / 0x400) ++
      unicodeEscape (0xDC00 + (r.code - 0x10000) % 0x400))

theorem escape_escapeRune (r : Rune) : Escape r (escapeRune r) := by
  unfold escapeRune
  dsimp only
  by_cases hquote : r.code = 0x22
  · rw [if_pos hquote, eq_of_code hquote]
    exact .letter rfl
  rw [if_neg hquote]
  by_cases hslash : r.code = 0x5C
  · rw [if_pos hslash, eq_of_code hslash]
    exact .letter rfl
  rw [if_neg hslash]
  by_cases hfeed : r.code = 0x0A
  · rw [if_pos hfeed, eq_of_code hfeed]
    exact .letter rfl
  rw [if_neg hfeed]
  by_cases hreturn : r.code = 0x0D
  · rw [if_pos hreturn, eq_of_code hreturn]
    exact .letter rfl
  rw [if_neg hreturn]
  by_cases htab : r.code = 0x09
  · rw [if_pos htab, eq_of_code htab]
    exact .letter rfl
  rw [if_neg htab]
  by_cases hform : r.code = 0x0C
  · rw [if_pos hform, eq_of_code hform]
    exact .letter rfl
  rw [if_neg hform]
  by_cases hback : r.code = 0x08
  · rw [if_pos hback, eq_of_code hback]
    exact .letter rfl
  rw [if_neg hback]
  by_cases hplain : 0x20 ≤ r.code ∧ r.code < 0x7F
  · rw [if_pos hplain]
    exact .itself hquote hslash hplain.1
  rw [if_neg hplain]
  by_cases hsmall : r.code < 0x10000
  · rw [if_pos hsmall]
    exact .code hsmall
  · rw [if_neg hsmall]
    exact .pair (Nat.not_lt.mp hsmall)

theorem dollar_not_mem_unicodeEscape {n : Nat} (hn : n < 0x10000) :
    .scalar '$' ∉ unicodeEscape n := by
  obtain ⟨a, b, c, d, hhex, hquad⟩ := hex_four hn
  unfold unicodeEscape
  rw [hhex]
  exact List.not_mem_cons_of_ne_of_not_mem (by decide)
    (List.not_mem_cons_of_ne_of_not_mem (by decide) (not_mem_hexQuad hquad rfl))

/-- A rune that is not written as itself is written behind a backslash and without a dollar. -/
theorem Escape.front {r : Rune} {written : Text} (h : Escape r written) :
    written = [r] ∨ (∃ more, written = .scalar '\\' :: more) ∧ .scalar '$' ∉ written := by
  cases h with
  | itself => exact .inl rfl
  | @letter s hletter =>
      refine .inr ⟨⟨_, rfl⟩, ?_⟩
      simp only [List.mem_cons, List.not_mem_nil, or_false, not_or]
      refine ⟨by decide, ?_⟩
      rintro rfl
      cases hletter
  | code hsmall => exact .inr ⟨⟨_, rfl⟩, dollar_not_mem_unicodeEscape hsmall⟩
  | pair hlarge =>
      have hbound := r.code_lt
      refine .inr ⟨⟨_, rfl⟩, fun hmem => ?_⟩
      rcases List.mem_append.mp hmem with hmem | hmem
      · exact dollar_not_mem_unicodeEscape (by omega) hmem
      · exact dollar_not_mem_unicodeEscape (by omega) hmem

theorem highCode_isHigh {n : Nat} (hn : n < 0x110000) : isHigh (0xD800 + (n - 0x10000) / 0x400) = true := by
  unfold isHigh
  simp only [Bool.and_eq_true, decide_eq_true_eq]
  omega

theorem lowCode_isLow (n : Nat) : isLow (0xDC00 + (n - 0x10000) % 0x400) = true := by
  unfold isLow
  simp only [Bool.and_eq_true, decide_eq_true_eq]
  omega

theorem joinPair_codes {n : Nat} (hn : 0x10000 ≤ n) :
    joinPair (0xD800 + (n - 0x10000) / 0x400) (0xDC00 + (n - 0x10000) % 0x400) = n := by
  unfold joinPair
  omega

theorem Escape.spelt {r : Rune} {written next : Text} (h : Escape r written)
    (hnext : isHigh r.code = true → ∀ rest, lowHalf? (next ++ .scalar '"' :: rest) = some none) :
    Spelt r written next := by
  cases h with
  | itself hquote hslash hblank => exact .itself hquote hslash hblank
  | letter hletter => exact .letter hletter
  | code hsmall =>
      obtain ⟨a, b, c, d, hhex, hquad⟩ := hex_four hsmall
      have hspelt := Spelt.code hquad hnext
      rw [Rune.ofCode_code] at hspelt
      rw [unicodeEscape, hhex]
      exact hspelt
  | pair hlarge =>
      have hcode := r.code_lt
      obtain ⟨a, b, c, d, hhex, hquad⟩ := hex_four
        (n := 0xD800 + (r.code - 0x10000) / 0x400) (by omega)
      obtain ⟨a', b', c', d', hhex', hquad'⟩ := hex_four
        (n := 0xDC00 + (r.code - 0x10000) % 0x400) (by omega)
      have hspelt := (.pair hquad hquad' (highCode_isHigh hcode) (lowCode_isLow _) : Spelt _ _ next)
      rw [joinPair_codes hlarge, Rune.ofCode_code] at hspelt
      rw [unicodeEscape, hhex, unicodeEscape, hhex']
      exact hspelt

theorem Escape.lowHalf {r : Rune} {written tail : Text} (h : Escape r written)
    (hlow : isLow r.code = false) (htail : tail ≠ []) : lowHalf? (written ++ tail) = some none := by
  obtain ⟨e, tail, rfl⟩ := List.exists_cons_of_ne_nil htail
  cases h with
  | itself _ hslash _ => exact lowHalf_of_ne (fun h => hslash (congrArg Rune.code h)) _
  | letter hletter => exact lowHalf_of_letter (simpleEscape_ne_u hletter) _
  | code hsmall =>
      obtain ⟨a, b, c, d, hhex, hquad⟩ := hex_four hsmall
      rw [unicodeEscape, hhex]
      refine (lowHalf_of_code hquad tail).trans ?_
      rw [hlow]
      rfl
  | pair hlarge =>
      have hcode := r.code_lt
      obtain ⟨a, b, c, d, hhex, hquad⟩ := hex_four
        (n := 0xD800 + (r.code - 0x10000) / 0x400) (by omega)
      rw [unicodeEscape, hhex]
      refine (lowHalf_of_code hquad _).trans ?_
      rw [not_isLow_of_isHigh (highCode_isHigh hcode)]
      rfl

/-- A text as it comes back: two halves of a pair that stand side by side are one character. -/
def joined : Text → Text
  | r :: s :: rest =>
      if isHigh r.code && isLow s.code then Rune.ofCode (joinPair r.code s.code) :: joined rest
      else r :: joined (s :: rest)
  | t => t

theorem escapeRune_of_half {r : Rune} (hlow : 0xD800 ≤ r.code) (hhigh : r.code < 0xE000) :
    escapeRune r = unicodeEscape r.code := by
  unfold escapeRune
  dsimp only
  rw [if_neg (by omega), if_neg (by omega), if_neg (by omega), if_neg (by omega), if_neg (by omega),
    if_neg (by omega), if_neg (by omega), if_neg (by omega), if_pos (by omega)]

theorem spelt_pair {r s : Rune} (hhigh : isHigh r.code = true) (hlow : isLow s.code = true)
    (next : Text) :
    Spelt (Rune.ofCode (joinPair r.code s.code)) (escapeRune r ++ escapeRune s) next := by
  have hr := hhigh
  have hs := hlow
  unfold isHigh at hr
  unfold isLow at hs
  simp only [Bool.and_eq_true, decide_eq_true_eq] at hr hs
  obtain ⟨a, b, c, d, hhex, hquad⟩ := hex_four (n := r.code) (by omega)
  obtain ⟨a', b', c', d', hhex', hquad'⟩ := hex_four (n := s.code) (by omega)
  rw [escapeRune_of_half (by omega) (by omega), escapeRune_of_half (by omega) (by omega),
    unicodeEscape, hhex, unicodeEscape, hhex']
  exact .pair hquad hquad' hhigh hlow

/-- What is written of a text spells the text as it comes back. -/
theorem spells_escaped (t : Text) : Spells (t.flatMap escapeRune) (joined t) := by
  induction t using joined.induct with
  | case1 r s rest hpair ih =>
      obtain ⟨hhigh, hlow⟩ := Bool.and_eq_true_iff.mp hpair
      rw [joined, if_pos hpair, List.flatMap_cons, List.flatMap_cons, ← List.append_assoc]
      exact .cons (spelt_pair hhigh hlow _) ih
  | case2 r s rest hpair ih =>
      -- behind an upper half that stands alone no lower half is written
      rw [joined, if_neg hpair, List.flatMap_cons]
      refine .cons ((escape_escapeRune r).spelt fun hhigh tail => ?_) ih
      have hlow : isLow s.code = false := by
        rw [hhigh, Bool.true_and] at hpair
        exact Bool.not_eq_true _ ▸ hpair
      rw [List.flatMap_cons, List.append_assoc]
      exact (escape_escapeRune s).lowHalf hlow (by simp)
  | case3 t hshort =>
      match t with
      | [] => exact .nil
      | [r] => exact .cons ((escape_escapeRune r).spelt fun _ _ => rfl) .nil
      | r :: s :: rest => exact absurd rfl (hshort r s rest)

/-- No upper half of a pair stands right before a lower one. -/
def Unsplit (t : Text) : Prop :=
  t.IsChain fun r s => ¬(isHigh r.code = true ∧ isLow s.code = true)

theorem joined_of_unsplit {t : Text} (ht : Unsplit t) : joined t = t := by
  induction t using joined.induct with
  | case1 r s rest hpair =>
      exact absurd (Bool.and_eq_true_iff.mp hpair) (List.isChain_cons_cons.mp ht).1
  | case2 r s rest hpair ih => rw [joined, if_neg hpair, ih (List.isChain_cons_cons.mp ht).2]
  | case3 t hshort =>
      match t with
      | [] => rfl
      | [r] => rfl
      | r :: s :: rest => exact absurd rfl (hshort r s rest)

theorem not_isHigh_of_isScalar {r : Rune} (hr : r.isScalar = true) : ¬isHigh r.code = true := by
  cases r with
  | half => cases hr
  | scalar c =>
      have hvalid : c.toNat < 0xD800 ∨ 0xDFFF < c.toNat ∧ c.toNat < 0x110000 := c.valid
      change ¬isHigh c.toNat = true
      unfold isHigh
      simp only [Bool.and_eq_true, decide_eq_true_eq]
      omega

theorem unsplit_of_scalars {t : Text} (ht : t.isWellFormed = true) : Unsplit t := by
  induction t with
  | nil => exact .nil
  | cons r t ih =>
      obtain ⟨hr, ht⟩ := Bool.and_eq_true_iff.mp ht
      cases t with
      | nil => exact .singleton r
      | cons s t =>
          exact List.isChain_cons_cons.mpr ⟨fun hpair => not_isHigh_of_isScalar hr hpair.1, ih ht⟩

theorem joined_of_scalars {t : Text} (ht : t.isWellFormed = true) : joined t = t :=
  joined_of_unsplit (unsplit_of_scalars ht)

theorem renderText_append (t rest : Text) :
    renderText t ++ rest = .scalar '"' :: (t.flatMap escapeRune ++ .scalar '"' :: rest) := by
  unfold renderText
  rw [List.cons_append, List.append_assoc]
  rfl

theorem scanQuoted_renderText (t rest : Text) :
    scanQuoted (t.flatMap escapeRune ++ .scalar '"' :: rest) = .ok (joined t, rest) :=
  (spells_escaped t).scanQuoted rest

end RemoteModel.Json
