import Mathlib.Data.List.TakeDrop
import Mathlib.Data.List.TakeWhile
import RemoteModel.Http.Address

/-!
Addresses that are written in plain characters. Authority and path are together what stands behind the
two slashes, up to the first question mark or hash.
-/

namespace RemoteModel

theorem takeWhile_dropWhile_and {α : Type} (p q : α → Bool) (xs : List α) :
    (xs.dropWhile fun x => q x && p x).takeWhile p = (xs.takeWhile p).dropWhile q := by
  induction xs with
  | nil => rfl
  | cons x xs ih =>
      cases hp : p x with
      | false => simp [hp]
      | true =>
          cases hq : q x with
          | false => simp [hp, hq]
          | true => simpa [hp, hq] using ih

namespace Address

def isMark (r : Rune) : Bool := r = .scalar '?' || r = .scalar '#'

/-- The part that names something: what stands behind a question mark or a hash does not. -/
def named (t : Text) : Text := t.takeWhile fun r => !isMark r

def beforeSlash (t : Text) : Text := t.takeWhile fun r => r ≠ .scalar '/'

def fromSlash (t : Text) : Text := t.dropWhile fun r => r ≠ .scalar '/'

def IsPlain (r : Rune) : Prop := 0x20 ≤ r.code ∧ r.code ≤ 0x7E

instance (r : Rune) : Decidable (IsPlain r) := inferInstanceAs (Decidable (_ ∧ _))

theorem IsPlain.filtered {r : Rune} (h : IsPlain r) :
    (r ≠ .scalar '\t' && r ≠ .scalar '\r' && r ≠ .scalar '\n') = true := by
  simp only [ne_eq, Bool.and_eq_true, decide_eq_true_eq]
  refine ⟨⟨?_, ?_⟩, ?_⟩ <;>
  · rintro rfl
    exact absurd h (by decide)

theorem cleaned_of_plain {first : Rune} {rest : Text} (hfirst : 0x20 < first.code)
    (hplain : ∀ r ∈ first :: rest, IsPlain r) : cleaned (first :: rest) = first :: rest := by
  unfold cleaned
  rw [List.dropWhile_cons_of_neg (by simpa using hfirst)]
  exact List.filter_eq_self.mpr fun r hr => (hplain r hr).filtered

theorem cutScheme_eq {first : Rune} {more rest : Text} (hletter : first.isAsciiLetter = true)
    (hrunes : ∀ r ∈ first :: more, isSchemeRune r = true) :
    cutScheme (first :: more ++ .scalar ':' :: rest) = (Text.lowerAscii (first :: more), rest) := by
  unfold cutScheme
  rw [List.span_eq_takeWhile_dropWhile, List.takeWhile_append_of_pos hrunes,
    List.dropWhile_append_of_pos hrunes, List.takeWhile_cons_of_neg (by decide),
    List.dropWhile_cons_of_neg (by decide), List.append_nil]
  exact if_pos hletter

theorem disguises_far : ∀ r ∈ disguises, ¬IsPlain r := by
  decide +kernel

theorem authorityFault?_of_plain {authority : Text} (hplain : ∀ r ∈ authority, IsPlain r)
    (hopen : .scalar '[' ∉ authority) (hclose : .scalar ']' ∉ authority) :
    authorityFault? authority = none := by
  have hdisguise : authority.any disguises.contains = false := by
    rw [List.any_eq_false]
    intro r hr hdisguise
    exact disguises_far r (by simpa using hdisguise) (hplain r hr)
  unfold authorityFault?
  dsimp only
  rw [hdisguise]
  simp [hopen, hclose]

theorem beforeSlash_append_fromSlash (t : Text) : beforeSlash t ++ fromSlash t = t :=
  List.takeWhile_append_dropWhile

theorem cutAt_fst (mark : Rune) (t : Text) : (cutAt mark t).1 = t.takeWhile (· ≠ mark) := by
  unfold cutAt Text.cut
  rw [List.span_eq_takeWhile_dropWhile]
  simp

/-- Behind two slashes stand the authority and the path of what is named. -/
theorem cutAuthority_eq (t : Text) :
    (cutAuthority (.scalar '/' :: .scalar '/' :: t)).1 = beforeSlash (named t) ∧
      (cutAt (.scalar '?') (cutAt (.scalar '#')
        (cutAuthority (.scalar '/' :: .scalar '/' :: t)).2).1).1 = fromSlash (named t) := by
  have hstop : (fun r : Rune => !(decide (r = .scalar '/') || decide (r = .scalar '?') ||
      decide (r = .scalar '#'))) = fun r => decide (r ≠ .scalar '/') && !isMark r := by
    funext r
    simp [isMark, Bool.and_assoc]
  have hcut : cutAuthority (.scalar '/' :: .scalar '/' :: t) =
      (t.takeWhile fun r => decide (r ≠ .scalar '/') && !isMark r,
        t.dropWhile fun r => decide (r ≠ .scalar '/') && !isMark r) := by
    rw [← hstop, ← List.span_eq_takeWhile_dropWhile]
    rfl
  rw [hcut, cutAt_fst, cutAt_fst, List.takeWhile_takeWhile]
  constructor
  · unfold beforeSlash named
    rw [List.takeWhile_takeWhile]
    simp
  · have hmarks : (fun r : Rune => decide (decide (r ≠ .scalar '?') = true ∧
        decide (r ≠ .scalar '#') = true)) = fun r => !isMark r := by
      funext r
      simp [isMark]
    rw [hmarks]
    exact takeWhile_dropWhile_and _ _ t

/-- The parts of an address in plain characters with an authority without brackets. -/
theorem parse_of_plain {first : Rune} {more t : Text} (hletter : first.isAsciiLetter = true)
    (hrunes : ∀ r ∈ first :: more, isSchemeRune r = true) (hscheme : ∀ r ∈ first :: more, IsPlain r)
    (hplain : ∀ r ∈ t, IsPlain r) (hopen : .scalar '[' ∉ beforeSlash (named t))
    (hclose : .scalar ']' ∉ beforeSlash (named t)) : ∃ query fragment,
      parse (first :: more ++ "://" ++ t) = .ok ⟨Text.lowerAscii (first :: more),
        beforeSlash (named t), fromSlash (named t), query, fragment⟩ := by
  have htext : first :: more ++ "://" ++ t =
      first :: more ++ .scalar ':' :: .scalar '/' :: .scalar '/' :: t := by
    rw [List.append_assoc]
    rfl
  have hfirst : 0x20 < first.code := by
    by_contra hlow
    have hsame : first.code = 0x20 := by
      have := (hscheme first List.mem_cons_self).1
      omega
    simp [Rune.isAsciiLetter, Rune.isAsciiUpper, Rune.isAsciiLower, hsame] at hletter
  have hcleaned : cleaned (first :: more ++ .scalar ':' :: .scalar '/' :: .scalar '/' :: t) =
      first :: more ++ .scalar ':' :: .scalar '/' :: .scalar '/' :: t := by
    refine cleaned_of_plain hfirst fun r hr => ?_
    rcases List.mem_append.mp (show r ∈ (first :: more) ++ _ from hr) with hr | hr
    · exact hscheme r hr
    · simp only [List.mem_cons] at hr
      rcases hr with rfl | rfl | rfl | hr
      · decide
      · decide
      · decide
      · exact hplain r hr
  obtain ⟨hauthority, hpath⟩ := cutAuthority_eq t
  have hsound : authorityFault? (beforeSlash (named t)) = none := by
    refine authorityFault?_of_plain (fun r hr => hplain r ?_) hopen hclose
    exact List.takeWhile_subset _ (List.takeWhile_subset _ hr)
  unfold parse
  rw [htext, hcleaned, cutScheme_eq hletter hrunes]
  dsimp only
  rw [hauthority, hsound, ← hpath]
  exact ⟨_, _, rfl⟩

end Address

end RemoteModel
