import Mathlib.Data.List.Basic
import Mathlib.Data.List.TakeWhile
import RemoteModel.Files.Chunks
import RemoteModel.Proofs.Text.Digits

/-!
Paths and their texts. A proper path has only names that a text can spell, and reading its text gives
it back; a path that is read from a text is proper, and so is what lies below it.
-/

namespace RemoteModel

theorem Text.splitOn_eq_splitOn (sep : Rune) (t : Text) : t.splitOn sep = List.splitOn sep t := by
  induction t with
  | nil => simp [Text.splitOn]
  | cons r t ih =>
      obtain ⟨p, ps, hp⟩ := List.exists_cons_of_ne_nil (List.splitOn_ne_nil sep t)
      rw [List.splitOn_cons_eq_if_modifyHead, hp]
      rw [hp] at ih
      unfold Text.splitOn at ih ⊢
      rw [List.foldr_cons, ih]
      by_cases hr : r = sep
      · simp [hr]
      · simp [hr]

theorem Text.not_mem_of_mem_splitOn {sep : Rune} {t part : Text} (h : part ∈ t.splitOn sep) :
    sep ∉ part := by
  induction t generalizing part with
  | nil =>
      simp only [Text.splitOn, List.foldr_nil, List.mem_singleton] at h
      simp [h]
  | cons r t ih =>
      rw [Text.splitOn_eq_splitOn, List.splitOn_cons_eq_if_modifyHead,
        ← Text.splitOn_eq_splitOn] at h
      by_cases hr : r = sep
      · simp only [hr, BEq.rfl, if_true, List.mem_cons] at h
        rcases h with rfl | h
        · simp
        · exact ih h
      · have hne : Text.splitOn sep t ≠ [] := by
          rw [Text.splitOn_eq_splitOn]
          exact List.splitOn_ne_nil sep t
        obtain ⟨p, ps, hp⟩ := List.exists_cons_of_ne_nil hne
        rw [hp, if_neg (by simpa using hr), List.modifyHead_cons, List.mem_cons] at h
        rcases h with rfl | h
        · have hp' : sep ∉ p := ih (by simp [hp])
          simp [hp', Ne.symm hr]
        · exact ih (by simp [hp, h])

namespace Path

def slash : Rune := .scalar '/'

structure IsPart (part : Text) : Prop where
  name : isName part = true
  whole : slash ∉ part

theorem IsPart.ne_nil {part : Text} (h : IsPart part) : part ≠ [] := by
  rintro rfl
  exact absurd h.name (by decide)

theorem isPart_ofNat (n : Nat) : IsPart (Text.ofNat n) := by
  constructor
  · have hdot : Text.ofNat n ≠ Text.ofString "." := by
      intro h
      have hmem : Rune.scalar '.' ∈ Text.ofNat n := by rw [h]; decide
      obtain ⟨c, hc, hdigit⟩ := Text.digit_of_mem_ofNat hmem
      rw [← Rune.scalar.inj hc] at hdigit
      exact absurd hdigit (by decide)
    simp [isName, Text.ofNat_ne_nil, hdot]
  · intro hmem
    obtain ⟨c, hc, hdigit⟩ := Text.digit_of_mem_ofNat hmem
    rw [← Rune.scalar.inj hc] at hdigit
    exact absurd hdigit (by decide)

theorem ofNat_ne_twoDots (n : Nat) : Text.ofNat n ≠ Tree.twoDots := by
  intro h
  have hmem : Rune.scalar '.' ∈ Text.ofNat n := by rw [h]; decide
  obtain ⟨c, hc, hdigit⟩ := Text.digit_of_mem_ofNat hmem
  rw [← Rune.scalar.inj hc] at hdigit
  exact absurd hdigit (by decide)

def IsProper (p : Path) : Prop := ∀ part ∈ p.parts, IsPart part

theorem isProper_ofText (t : Text) : (ofText t).IsProper := by
  intro part h
  obtain ⟨hmem, hname⟩ := List.mem_filter.mp h
  exact ⟨hname, Text.not_mem_of_mem_splitOn hmem⟩

theorem IsProper.join {p q : Path} (hp : p.IsProper) (hq : q.IsProper) : (p.join q).IsProper := by
  intro part h
  unfold Path.join at h
  split at h
  · rcases List.mem_append.mp h with h | h
    · exact hp part h
    · exact hq part h
  · exact hq part h

theorem IsProper.child {p : Path} (hp : p.IsProper) (t : Text) : (p.child t).IsProper :=
  hp.join (isProper_ofText t)

theorem filter_parts {p : Path} (hp : p.IsProper) : p.parts.filter isName = p.parts :=
  List.filter_eq_self.mpr fun part hpart => (hp part hpart).name

theorem splitOn_join {p : Path} (hp : p.IsProper) (hne : p.parts ≠ []) :
    (Text.join "/" p.parts).splitOn slash = p.parts := by
  rw [Text.splitOn_eq_splitOn]
  exact List.splitOn_intercalate slash (fun part hpart => (hp part hpart).whole) hne

theorem head_join {p : Path} (hp : p.IsProper) (hne : p.parts ≠ []) :
    ∃ r rest, Text.join "/" p.parts = r :: rest ∧ r ≠ slash := by
  obtain ⟨part, parts, hparts⟩ := List.exists_cons_of_ne_nil hne
  have hpart : IsPart part := hp part (by simp [hparts])
  obtain ⟨r, rest, rfl⟩ := List.exists_cons_of_ne_nil hpart.ne_nil
  have hr : r ≠ slash := by
    rintro rfl
    exact hpart.whole (by simp)
  cases parts with
  | nil => exact ⟨r, rest, by simp [hparts, Text.join], hr⟩
  | cons next parts =>
      refine ⟨r, rest ++ slash :: Text.join "/" (next :: parts), ?_, hr⟩
      rw [hparts, Text.join, List.intercalate_cons_cons]
      simp [Text.join, Text.ofString, slash]

theorem text_of_parts {p : Path} (hne : p.parts ≠ []) :
    p.text = p.anchor.text ++ Text.join "/" p.parts := by
  obtain ⟨anchor, parts⟩ := p
  cases anchor with
  | here => cases parts with
      | nil => exact absurd rfl hne
      | cons => rfl
  | root => rfl
  | twin => rfl

theorem anchor_text (anchor : Anchor) : anchor.text = match anchor with
    | .here => []
    | .root => [slash]
    | .twin => [slash, slash] := by
  cases anchor <;> decide

theorem splitOn_slash (t : Text) : Text.splitOn slash (slash :: t) = [] :: t.splitOn slash := by
  simp [Text.splitOn_eq_splitOn, List.splitOn_cons_eq_if_modifyHead]

theorem anchorOf_append (anchor : Anchor) {r : Rune} {rest : Text} (hr : r ≠ slash) :
    anchorOf ((match anchor with
      | .here => []
      | .root => [slash]
      | .twin => [slash, slash]) ++ r :: rest) = anchor := by
  unfold slash at hr
  cases anchor with
  | here => simp [anchorOf, hr]
  | root => simp [anchorOf, slash, hr]
  | twin => simp [anchorOf, slash, hr]

theorem ofText_text {p : Path} (hp : p.IsProper) : ofText p.text = p := by
  by_cases hne : p.parts = []
  · obtain ⟨anchor, parts⟩ := p
    obtain rfl : parts = [] := hne
    cases anchor <;> decide
  · have hsplit := splitOn_join hp hne
    obtain ⟨r, rest, hjoin, hr⟩ := head_join hp hne
    have hparts : p.text.splitOn slash = match p.anchor with
        | .here => p.parts
        | .root => [] :: p.parts
        | .twin => [] :: [] :: p.parts := by
      rw [text_of_parts hne, anchor_text]
      cases p.anchor with
      | here => exact hsplit
      | root => exact (splitOn_slash _).trans (congrArg _ hsplit)
      | twin =>
          refine (splitOn_slash _).trans (congrArg _ ?_)
          exact (splitOn_slash _).trans (congrArg _ hsplit)
    have hanchor : anchorOf p.text = p.anchor := by
      rw [text_of_parts hne, anchor_text, hjoin]
      exact anchorOf_append p.anchor hr
    have hfilter := filter_parts hp
    obtain ⟨anchor, parts⟩ := p
    change Path.mk _ ((Path.text ⟨anchor, parts⟩).splitOn slash |>.filter isName) = _
    rw [hanchor, hparts]
    cases anchor <;> simp_all [isName]

theorem child_part (p : Path) {part : Text} (h : IsPart part) :
    p.child part = ⟨p.anchor, p.parts ++ [part]⟩ := by
  have hread : ofText part = ⟨.here, [part]⟩ := by
    have hproper : IsProper ⟨.here, [part]⟩ := by
      intro other hother
      rwa [List.mem_singleton.mp hother]
    have htext : Path.text ⟨.here, [part]⟩ = part := by
      simp [Path.text, Anchor.text, Text.join]
    rw [← ofText_text hproper, htext]
  rw [child, hread]
  rfl

theorem text_append (anchor : Anchor) (front : List Text) (last more : Text) :
    (Path.mk anchor (front ++ [last])).text ++ more =
      (Path.mk anchor (front ++ [last ++ more])).text := by
  rw [text_of_parts (by simp), text_of_parts (by simp), List.append_assoc]
  congr 1
  induction front with
  | nil => simp [Text.join]
  | cons part front ih =>
      simp only [Text.join, List.cons_append] at ih ⊢
      rw [List.intercalate_cons_of_ne_nil (by simp), List.intercalate_cons_of_ne_nil (by simp),
        List.append_assoc, ih]

theorem text_snoc (anchor : Anchor) {parts : List Text} (hne : parts ≠ []) (name : Text) :
    (Path.mk anchor (parts ++ [name])).text =
      (Path.mk anchor parts).text ++ Text.ofString "/" ++ name := by
  rw [text_of_parts (by simp), text_of_parts hne, List.append_assoc, List.append_assoc]
  congr 1
  induction parts with
  | nil => exact absurd rfl hne
  | cons part parts ih =>
      by_cases hparts : parts = []
      · subst hparts
        simp [Text.join]
      · simp only [Text.join, List.cons_append] at ih ⊢
        rw [List.intercalate_cons_of_ne_nil (by simp), List.intercalate_cons_of_ne_nil hparts,
          ih hparts]
        simp only [List.append_assoc]

theorem all_join {keep : Rune → Bool} (hslash : keep slash = true) (parts : List Text) :
    (Text.join "/" parts).all keep = true ↔ ∀ part ∈ parts, part.all keep = true := by
  induction parts with
  | nil => simp [Text.join]
  | cons part parts ih =>
      cases parts with
      | nil => simp [Text.join]
      | cons next parts =>
          have hsep : (Text.ofString "/").all keep = true := List.all_eq_true.mpr fun r hr => by
            rw [List.mem_singleton.mp hr]
            exact hslash
          rw [Text.join, List.intercalate_cons_cons]
          simp only [Text.join] at ih
          simp only [List.all_append, Bool.and_eq_true, hsep, ih, and_true, List.forall_mem_cons]

theorem all_text {keep : Rune → Bool} (hslash : keep slash = true) (hdot : keep (.scalar '.') = true)
    (p : Path) : p.text.all keep = true ↔ ∀ part ∈ p.parts, part.all keep = true := by
  have hanchor : p.anchor.text.all keep = true := by
    rw [anchor_text]
    cases p.anchor <;> simp [hslash]
  by_cases hne : p.parts = []
  · obtain ⟨anchor, parts⟩ := p
    obtain rfl : parts = [] := hne
    refine iff_of_true ?_ (List.forall_mem_nil _)
    cases anchor with
    | here => exact List.all_eq_true.mpr fun r hr => by rwa [List.mem_singleton.mp hr]
    | root | twin => exact hanchor
  · rw [text_of_parts hne, List.all_append, Bool.and_eq_true, all_join hslash]
    exact and_iff_right hanchor

end Path

theorem Utf8.firstUnwritable_eq_none_iff {writable : Rune → Bool} {t : Text} :
    firstUnwritable writable t = none ↔ t.all writable = true := by
  unfold firstUnwritable
  dsimp only
  split
  next hnil =>
    have hwhole := (List.takeWhile_prefix writable).eq_of_length_le (List.drop_eq_nil_iff.mp hnil)
    refine iff_of_true rfl ?_
    rw [← hwhole]
    exact List.all_takeWhile
  next hcons =>
    refine iff_of_false nofun fun hall => ?_
    rw [List.takeWhile_eq_self_iff.mpr (List.all_eq_true.mp hall), List.drop_length] at hcons
    cases hcons

theorem Text.encode_eq_ok_iff {t : Text} :
    (∃ bytes, Text.encode t = .ok bytes) ↔ t.isWellFormed = true := by
  unfold Text.encode Utf8.encode?
  by_cases hformed : t.isWellFormed = true
  · simp [hformed]
  · rw [if_neg hformed]
    dsimp only
    split
    next => simp [hformed]
    next hnone => exact absurd (Utf8.firstUnwritable_eq_none_iff.mp hnone) hformed

namespace Files

/-- Names that can be written to the system. -/
structure IsAskable (name : Text) : Prop where
  writable : name.all FileName.isWritable = true
  noNull : Rune.scalar '\x00' ∉ name

theorem checkPath_iff {p : Path} :
    checkPath p = .ok () ↔ ∀ name ∈ p.parts, IsAskable name := by
  have hall : p.text.all FileName.isWritable = true ↔
      ∀ name ∈ p.parts, name.all FileName.isWritable = true := Path.all_text rfl rfl p
  unfold checkPath
  split
  next hsome =>
    refine iff_of_false nofun fun h => ?_
    have hnone := Utf8.firstUnwritable_eq_none_iff.mpr
      (hall.mpr fun name hname => (h name hname).writable)
    rw [hnone] at hsome
    cases hsome
  next hnone =>
    have hwritable := hall.mp (Utf8.firstUnwritable_eq_none_iff.mp hnone)
    split
    next hnull =>
      simp only [List.any_eq_true, List.contains_iff_mem] at hnull
      obtain ⟨name, hname, hmem⟩ := hnull
      exact iff_of_false nofun fun h => (h name hname).noNull hmem
    next hnull =>
      simp only [List.any_eq_true, List.contains_iff_mem, not_exists, not_and] at hnull
      exact iff_of_true rfl fun name hname => ⟨hwritable name hname, hnull name hname⟩

theorem isAskable_ofNat (n : Nat) : IsAskable (Text.ofNat n) := by
  constructor
  · refine List.all_eq_true.mpr fun r hr => ?_
    obtain ⟨c, rfl, _⟩ := Text.digit_of_mem_ofNat hr
    rfl
  · intro hmem
    obtain ⟨c, hc, hdigit⟩ := Text.digit_of_mem_ofNat hmem
    rw [← Rune.scalar.inj hc] at hdigit
    exact absurd hdigit (by decide)

end Files

end RemoteModel
