import Mathlib.Data.List.TakeDrop
import Mathlib.Data.List.TakeWhile
import RemoteModel.Json.Parser

/-!
Numbers within a text: their digits, signs and whole parts, what is left of the text behind them, and the
whole numbers that are too long to be read.
-/

namespace RemoteModel.Json

/-! ### Digits, signs and whole parts -/

theorem digitsOf_spec (t : Text) : t = (digitsOf t).1 ++ (digitsOf t).2 ∧
    (∀ r ∈ (digitsOf t).1, r.isDigit = true) ∧
    ∀ r rest, (digitsOf t).2 = r :: rest → r.isDigit = false := by
  unfold digitsOf
  rw [List.span_eq_takeWhile_dropWhile]
  refine ⟨List.takeWhile_append_dropWhile.symm, fun r hr => List.mem_takeWhile_imp hr, ?_⟩
  intro r rest h
  have hhead := List.head?_dropWhile_not Rune.isDigit t
  dsimp only at h
  rw [h] at hhead
  exact hhead

theorem digitsOf_digits {digits rest : Text} (hdigits : ∀ d ∈ digits, d.isDigit = true)
    (hrest : ∀ d tail, rest = d :: tail → d.isDigit = false) :
    digitsOf (digits ++ rest) = (digits, rest) := by
  unfold digitsOf
  rw [List.span_eq_takeWhile_dropWhile, List.takeWhile_append_of_pos hdigits,
    List.dropWhile_append_of_pos hdigits]
  cases rest with
  | nil => rw [List.takeWhile_nil, List.append_nil, List.dropWhile_nil]
  | cons d tail =>
      have hd := hrest d tail rfl
      rw [List.takeWhile_cons_of_neg (by rw [hd]; exact Bool.false_ne_true),
        List.dropWhile_cons_of_neg (by rw [hd]; exact Bool.false_ne_true), List.append_nil]

theorem isSpace_of_isDigit {r : Rune} (h : r.isDigit = true) : isSpace r = false := by
  by_contra hspace
  simp only [isSpace, Bool.not_eq_false, Bool.or_eq_true, decide_eq_true_eq] at hspace
  rcases hspace with ((rfl | rfl) | rfl) | rfl <;> cases h

theorem digitsOf_none {t : Text} (h : ∀ d rest, t = d :: rest → d.isDigit = false) :
    digitsOf t = ([], t) := @digitsOf_digits [] t nofun h

theorem digitsOf_cons {d : Rune} (hd : d.isDigit = true) (rest : Text) :
    ∃ ds tail, digitsOf (d :: rest) = (d :: ds, tail) := by
  unfold digitsOf
  rw [List.span_eq_takeWhile_dropWhile, List.takeWhile_cons_of_pos hd]
  exact ⟨_, _, rfl⟩

theorem signed_spec (t : Text) : ∃ sign ∈ [[], [Rune.scalar '-'], [.scalar '+']],
    t = sign ++ (Numeral.signed t).2 := by
  unfold Numeral.signed
  split
  next => exact ⟨[.scalar '-'], by simp, rfl⟩
  next => exact ⟨[.scalar '+'], by simp, rfl⟩
  next => exact ⟨[], by simp, rfl⟩

theorem signed_digit {sign : Text} (hsign : sign ∈ [[], [Rune.scalar '-'], [.scalar '+']]) {d : Rune}
    (hd : d.isDigit = true) (rest : Text) : (Numeral.signed (sign ++ d :: rest)).2 = d :: rest := by
  simp only [List.mem_cons, List.not_mem_nil, or_false] at hsign
  rcases hsign with rfl | rfl | rfl
  · rw [List.nil_append]
    unfold Numeral.signed
    split
    next heq =>
      rw [(List.cons.inj heq).1] at hd
      cases hd
    next heq =>
      rw [(List.cons.inj heq).1] at hd
      cases hd
    next => rfl
  · rfl
  · rfl

/-- A whole part is nought, or digits that start with another one and that no digit follows. -/
theorem scanWhole_some {t whole rest : Text} (h : scanWhole t = some (whole, rest)) :
    t = whole ++ rest ∧ (whole = [.scalar '0'] ∨ (∀ d ∈ whole, d.isDigit = true) ∧
      whole.head? ≠ some (.scalar '0') ∧ ∀ d tail, rest = d :: tail → d.isDigit = false) := by
  unfold scanWhole at h
  split at h
  next =>
    cases h
    exact ⟨rfl, .inl rfl⟩
  next r tail hnought =>
    split at h
    next hr =>
      obtain ⟨ht, hdigits, hend⟩ := digitsOf_spec (r :: tail)
      obtain ⟨ds, tail', hds⟩ := digitsOf_cons hr tail
      have hwhole := Option.some.inj h
      rw [hwhole] at ht hdigits hend
      rw [hds] at hwhole
      refine ⟨ht, .inr ⟨hdigits, ?_, hend⟩⟩
      rw [← (Prod.mk.inj hwhole).1]
      exact fun heq => hnought (Option.some.inj heq)
    next => cases h
  next => cases h

theorem scanWhole_digits {digits rest : Text} (hne : digits ≠ [])
    (hdigits : ∀ d ∈ digits, d.isDigit = true) (hnought : digits.head? ≠ some (.scalar '0'))
    (hrest : ∀ d tail, rest = d :: tail → d.isDigit = false) :
    scanWhole (digits ++ rest) = some (digits, rest) := by
  have hscan := digitsOf_digits hdigits hrest
  obtain ⟨d, digits, rfl⟩ := List.exists_cons_of_ne_nil hne
  rw [List.cons_append] at hscan ⊢
  rw [scanWhole, if_pos (hdigits d List.mem_cons_self), hscan]
  rintro rfl
  exact hnought rfl

/-- No word starts with a digit, nor with a minus and a digit. -/
theorem words_digit {sign : Text} (hsign : sign = [] ∨ sign = [.scalar '-']) {d : Rune}
    (hd : d.isDigit = true) (rest : Text) :
    words.find? (fun w => (sign ++ d :: rest).startsWith w.1) = none := by
  have hwords : ∀ w ∈ words, (w.1.head?.map Rune.isDigit = some false) ∧
      (w.1.head? = some (.scalar '-') → w.1.tail.head?.map Rune.isDigit = some false) := by
    decide
  refine List.find?_eq_none.mpr fun w hw hstarts => ?_
  obtain ⟨hhead, hminus⟩ := hwords w hw
  obtain ⟨more, hmore⟩ := List.isPrefixOf_iff_prefix.mp hstarts
  cases hw' : w.1 with
  | nil =>
      rw [hw'] at hhead
      cases hhead
  | cons a as =>
      rw [hw'] at hhead hminus hmore
      rcases hsign with rfl | rfl
      · obtain ⟨rfl, -⟩ := List.cons.inj hmore
        rw [List.head?_cons, Option.map_some, hd] at hhead
        cases hhead
      · obtain ⟨rfl, hrest⟩ := List.cons.inj hmore
        have hnext := hminus rfl
        cases as with
        | nil => cases hnext
        | cons b bs =>
            obtain ⟨rfl, -⟩ := List.cons.inj hrest
            rw [List.tail_cons, List.head?_cons, Option.map_some, hd] at hnext
            cases hnext

/-- A number behind its sign. -/
def scanUnsigned (negative : Bool) (left : Nat) (body : Text) : Except Stop (Json × Text) :=
  match scanWhole body with
  | none => .error (.fault .value left)
  | some (whole, rest) =>
      let (fraction, rest) := scanFraction rest
      let (exponent, rest) := scanExponent rest
      match fraction, exponent with
      | none, none =>
          if Numeral.digitLimit < whole.length then .error (.tooLong whole.length)
          else
            let n := natOfDigits whole
            .ok (.int (if negative then -(n : Int) else n), rest)
      | _, _ =>
          let fraction := fraction.getD []
          .ok (.float (.ofDecimal negative (natOfDigits (whole ++ fraction))
            (exponent.getD 0 - fraction.length)), rest)

theorem scanNumber_minus (t : Text) :
    scanNumber (.scalar '-' :: t) = scanUnsigned true (t.length + 1) t := rfl

theorem scanNumber_unsigned {t : Text} (h : ∀ tail, t ≠ .scalar '-' :: tail) :
    scanNumber t = scanUnsigned false t.length t := by
  unfold scanNumber
  split
  next hsign =>
    split at hsign
    next => exact absurd rfl (h _)
    next =>
      cases hsign
      rfl

theorem scanNumber_signed (t : Text) : ∃ sign body negative, (sign = [] ∨ sign = [.scalar '-']) ∧
    t = sign ++ body ∧ scanNumber t = scanUnsigned negative t.length body := by
  by_cases hminus : ∃ body, t = .scalar '-' :: body
  · obtain ⟨body, rfl⟩ := hminus
    exact ⟨_, body, true, .inr rfl, rfl, scanNumber_minus body⟩
  · exact ⟨[], t, false, .inl rfl, rfl, scanNumber_unsigned fun body heq => hminus ⟨body, heq⟩⟩

/-! ### What is left behind a word or a number -/

theorem digitsOf_suffix (t : Text) : (digitsOf t).2 <:+ t := ⟨_, (digitsOf_spec t).1.symm⟩

theorem signed_suffix (t : Text) : (Numeral.signed t).2 <:+ t := by
  obtain ⟨sign, -, ht⟩ := signed_spec t
  exact ⟨sign, ht.symm⟩

theorem scanFraction_suffix (t : Text) : (scanFraction t).2 <:+ t := by
  unfold scanFraction
  split
  next rest =>
    have hsuffix := digitsOf_suffix rest
    split
    next => exact List.suffix_rfl
    next ds rest' _ heq =>
      rw [heq] at hsuffix
      exact hsuffix.trans (List.suffix_cons _ _)
  next => exact List.suffix_rfl

theorem scanExponent_suffix (t : Text) : (scanExponent t).2 <:+ t := by
  unfold scanExponent
  have hdigits {t ds rest : Text} (h : digitsOf (Numeral.signed t).2 = (ds, rest)) : rest <:+ t := by
    have hsuffix := digitsOf_suffix (Numeral.signed t).2
    rw [h] at hsuffix
    exact hsuffix.trans (signed_suffix t)
  split
  case h_3 => exact List.suffix_rfl
  all_goals
    dsimp only
    split
    next => exact List.suffix_rfl
    next heq => exact (hdigits heq).trans (List.suffix_cons _ _)

theorem scanUnsigned_suffix {negative : Bool} {left : Nat} {body rest : Text} {v : Json}
    (h : scanUnsigned negative left body = .ok (v, rest)) : rest <:+ body := by
  unfold scanUnsigned at h
  split at h
  next => cases h
  next whole tail hwhole =>
    have hsuffix := ((scanExponent_suffix (scanFraction tail).2).trans (scanFraction_suffix tail)).trans
      ⟨whole, (scanWhole_some hwhole).1.symm⟩
    dsimp only at h
    split at h
    next =>
      split at h
      next => cases h
      next =>
        cases h
        exact hsuffix
    next =>
      cases h
      exact hsuffix

theorem scanScalar_suffix {t rest : Text} {v : Json} (h : scanScalar t = .ok (v, rest)) :
    rest <:+ t := by
  unfold scanScalar at h
  split at h
  next =>
    cases h
    exact List.drop_suffix _ _
  next =>
    obtain ⟨sign, body, negative, -, ht, hscan⟩ := scanNumber_signed t
    rw [hscan] at h
    exact (scanUnsigned_suffix h).trans ⟨sign, ht.symm⟩

/-! ### Numbers that are too long -/

/-- What goes on with a whole number: a digit, or a fraction or an exponent that has one. -/
inductive GoesOn : Text → Prop
  | digit {d : Rune} {rest : Text} : d.isDigit = true → GoesOn (d :: rest)
  | fraction {d : Rune} {rest : Text} : d.isDigit = true → GoesOn (.scalar '.' :: d :: rest)
  | exponent {mark d : Rune} {sign rest : Text} : mark = .scalar 'e' ∨ mark = .scalar 'E' →
      sign ∈ [[], [Rune.scalar '-'], [.scalar '+']] → d.isDigit = true →
      GoesOn (mark :: (sign ++ d :: rest))

theorem not_digit_of_stops {t : Text} (h : ¬GoesOn t) {d : Rune} {rest : Text} (ht : t = d :: rest) :
    d.isDigit = false :=
  Bool.eq_false_iff.mpr fun hd => h (ht ▸ .digit hd)

/-- A text that starts with a whole number of `n` digits, which are more than are read. -/
inductive Overlong (n : Nat) : Text → Prop
  | intro {sign digits rest : Text} : sign = [] ∨ sign = [.scalar '-'] →
      (∀ d ∈ digits, d.isDigit = true) → digits.head? ≠ some (.scalar '0') → digits.length = n →
      Numeral.digitLimit < n → ¬GoesOn rest → Overlong n (sign ++ (digits ++ rest))

/-- A rune that numbers start with. -/
def Leads (r : Rune) : Prop := r = .scalar '-' ∨ r.isDigit = true

theorem Leads.isSpace {r : Rune} (h : Leads r) : isSpace r = false := by
  rcases h with rfl | hdigit
  · rfl
  · exact isSpace_of_isDigit hdigit

theorem Leads.ne {r s : Rune} (h : Leads r) (hs : ¬Leads s) : s ≠ r := fun heq => hs (heq ▸ h)

instance (r : Rune) : Decidable (Leads r) := inferInstanceAs (Decidable (_ ∨ _))

theorem Overlong.head {n : Nat} {number : Text} (h : Overlong n number) :
    ∃ r rest, number = r :: rest ∧ Leads r := by
  cases h with
  | @intro sign digits rest hsign hdigits _ hlength hlong _ =>
      obtain ⟨d, digits, rfl⟩ := List.exists_cons_of_length_pos (show 0 < digits.length by omega)
      rcases hsign with rfl | rfl
      · exact ⟨d, _, rfl, .inr (hdigits d List.mem_cons_self)⟩
      · exact ⟨_, _, rfl, .inl rfl⟩

theorem scanFraction_of_stops {t : Text} (h : ¬GoesOn t) : scanFraction t = (none, t) := by
  unfold scanFraction
  split
  next rest =>
    rw [digitsOf_none fun d tail heq => ?_]
    rw [heq] at h
    exact Bool.eq_false_iff.mpr fun hd => h (.fraction hd)
  next => rfl

theorem scanExponent_of_stops {t : Text} (h : ¬GoesOn t) : scanExponent t = (none, t) := by
  have hnone {mark : Rune} {rest : Text} (hmark : mark = .scalar 'e' ∨ mark = .scalar 'E')
      (heq : t = mark :: rest) :
      digitsOf (Numeral.signed rest).2 = ([], (Numeral.signed rest).2) := by
    obtain ⟨sign, hsign, hrest⟩ := signed_spec rest
    refine digitsOf_none fun d tail hd => ?_
    rw [hd] at hrest
    rw [heq, hrest] at h
    exact Bool.eq_false_iff.mpr fun hdigit => h (.exponent hmark hsign hdigit)
  unfold scanExponent
  split
  next rest =>
    dsimp only
    rw [hnone (.inl rfl) rfl]
  next rest =>
    dsimp only
    rw [hnone (.inr rfl) rfl]
  next => rfl

theorem scanFraction_none {t : Text} (h : (scanFraction t).1 = none) : scanFraction t = (none, t) := by
  refine Prod.ext h ?_
  unfold scanFraction
  split
  next =>
    split
    next => rfl
    next ds _ hne heq =>
      rw [scanFraction, heq] at h
      cases ds with
      | nil => exact absurd rfl hne
      | cons => cases h
  next => rfl

theorem stops_of_scans {t : Text} (hdigit : ∀ d rest, t = d :: rest → d.isDigit = false)
    (hfraction : (scanFraction t).1 = none) (hexponent : (scanExponent t).1 = none) : ¬GoesOn t := by
  intro h
  cases h with
  | digit hd =>
      rw [hdigit _ _ rfl] at hd
      cases hd
  | @fraction d rest hd =>
      obtain ⟨ds, tail, hds⟩ := digitsOf_cons hd rest
      rw [scanFraction, hds] at hfraction
      cases hfraction
  | @exponent mark d sign rest hmark hsign hd =>
      obtain ⟨ds, tail, hds⟩ := digitsOf_cons hd rest
      rw [← signed_digit hsign hd rest] at hds
      rcases hmark with rfl | rfl
      all_goals
        rw [scanExponent] at hexponent
        dsimp only at hexponent
        rw [hds] at hexponent
        cases hexponent

theorem scanUnsigned_tooLong {negative : Bool} {left n : Nat} {body : Text} :
    scanUnsigned negative left body = .error (.tooLong n) ↔ ∃ digits rest, body = digits ++ rest ∧
      (∀ d ∈ digits, d.isDigit = true) ∧ digits.head? ≠ some (.scalar '0') ∧ digits.length = n ∧
      Numeral.digitLimit < n ∧ ¬GoesOn rest := by
  constructor
  · intro h
    unfold scanUnsigned at h
    split at h
    next => cases h
    next whole rest hwhole =>
      dsimp only at h
      split at h
      next hfraction hexponent =>
        split at h
        next hlong =>
          cases h
          rw [scanFraction_none hfraction] at hexponent
          obtain ⟨rfl, rfl | ⟨hdigits, hnought, hend⟩⟩ := scanWhole_some hwhole
          · exact absurd hlong (by decide)
          · exact ⟨whole, rest, rfl, hdigits, hnought, rfl, hlong,
              stops_of_scans hend hfraction hexponent⟩
        next => cases h
      next => cases h
  · rintro ⟨digits, rest, rfl, hdigits, hnought, rfl, hlong, hstops⟩
    have hne : digits ≠ [] := List.length_pos_iff.mp (Nat.zero_lt_of_lt hlong)
    unfold scanUnsigned
    rw [scanWhole_digits hne hdigits hnought fun _ _ => not_digit_of_stops hstops]
    dsimp only
    rw [scanFraction_of_stops hstops]
    dsimp only
    rw [scanExponent_of_stops hstops]
    dsimp only
    rw [if_pos hlong]

theorem scanScalar_tooLong {t : Text} {n : Nat} :
    scanScalar t = .error (.tooLong n) ↔ Overlong n t := by
  constructor
  · intro h
    unfold scanScalar at h
    split at h
    next => cases h
    next =>
      obtain ⟨sign, body, negative, hsign, rfl, hscan⟩ := scanNumber_signed t
      rw [hscan] at h
      obtain ⟨digits, rest, rfl, hdigits, hnought, hlength, hlong, hstops⟩ :=
        scanUnsigned_tooLong.mp h
      exact .intro hsign hdigits hnought hlength hlong hstops
  · intro h
    cases h with
    | @intro sign digits rest hsign hdigits hnought hlength hlong hstops =>
        have hscan (negative : Bool) (left : Nat) :
            scanUnsigned negative left (digits ++ rest) = .error (.tooLong n) :=
          scanUnsigned_tooLong.mpr ⟨digits, rest, rfl, hdigits, hnought, hlength, hlong, hstops⟩
        obtain ⟨d, digits, rfl⟩ := List.exists_cons_of_length_pos
          (show 0 < digits.length by omega)
        have hd := hdigits d List.mem_cons_self
        unfold scanScalar
        rw [List.cons_append, words_digit hsign hd]
        rcases hsign with rfl | rfl
        · refine (scanNumber_unsigned fun body heq => ?_).trans (hscan _ _)
          rw [(List.cons.inj heq).1] at hd
          cases hd
        · exact hscan _ _

end RemoteModel.Json
