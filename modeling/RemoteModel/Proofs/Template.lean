import Mathlib.Data.List.TakeDrop
import RemoteModel.Proofs.Results
import RemoteModel.Template

/-!
The pieces of a template. A hole is where its spelling stands, pieces are taken from the front, and a text
is cut into pieces part by part wherever no hole reaches over the cut.
-/

namespace RemoteModel.Template

/-- What can name a hole. -/
def IsName (name : Text) : Prop := name ≠ [] ∧ ∀ r ∈ name, isNameRune r = true

theorem closing_iff {t name : Text} :
    closing? t = some name ↔ IsName name ∧ ∃ rest, t = name ++ .scalar '\x7d' :: rest := by
  unfold closing?
  rw [List.span_eq_takeWhile_dropWhile]
  constructor
  · intro h
    split at h
    next r found rest hspan =>
      cases h
      obtain ⟨htake, hdrop⟩ := Prod.mk.inj hspan
      refine ⟨⟨List.cons_ne_nil _ _, fun s hs => ?_⟩, rest, ?_⟩
      · rw [← htake] at hs
        exact List.all_eq_true.mp List.all_takeWhile s hs
      · rw [← htake, ← hdrop, List.takeWhile_append_dropWhile]
    next => cases h
  · -- the closing brace is no rune of a name, so the span stops in front of it
    rintro ⟨⟨hname, hrunes⟩, rest, rfl⟩
    rw [List.takeWhile_append_of_pos hrunes, List.dropWhile_append_of_pos hrunes,
      List.takeWhile_cons_of_neg (by decide), List.dropWhile_cons_of_neg (by decide),
      List.append_nil]
    cases name with
    | nil => exact absurd rfl hname
    | cons r name => rfl

def opening (scope : Scope) : Text :=
  .scalar '$' :: .scalar '\x7b' :: (scope.name ++ [.scalar '.'])

theorem spelling_eq (scope : Scope) (name : Text) :
    spelling scope name = opening scope ++ (name ++ [.scalar '\x7d']) := by
  unfold spelling opening
  rw [List.cons_append, List.cons_append, List.append_assoc]
  rfl

theorem holeOf_iff {scope : Scope} {t name : Text} :
    holeOf? scope t = some name ↔ IsName name ∧ spelling scope name <+: t := by
  unfold holeOf?
  rw [spelling_eq]
  change (if (opening scope).isPrefixOf t = true then closing? (t.drop (opening scope).length)
    else none) = some name ↔ _
  constructor
  · intro h
    split at h
    next hopening =>
      obtain ⟨tail, rfl⟩ := List.isPrefixOf_iff_prefix.mp hopening
      rw [List.drop_left] at h
      obtain ⟨hname, rest, rfl⟩ := closing_iff.mp h
      exact ⟨hname, rest, by simp⟩
    next => cases h
  · rintro ⟨hname, rest, rfl⟩
    rw [List.append_assoc, if_pos (List.isPrefixOf_iff_prefix.mpr (List.prefix_append _ _)),
      List.drop_left]
    exact closing_iff.mpr ⟨hname, rest, by simp⟩

/-- The openings differ in the first rune of their scope. -/
theorem opening_injective {scope scope' : Scope} {t : Text} (h : opening scope <+: t)
    (h' : opening scope' <+: t) : scope = scope' := by
  have hlength (scope : Scope) : 3 ≤ (opening scope).length := by cases scope <;> decide
  obtain ⟨rest, rfl⟩ := h
  obtain ⟨rest', heq⟩ := h'
  have htake := congrArg (List.take 3) heq
  rw [List.take_append_of_le_length (hlength _), List.take_append_of_le_length (hlength _)] at htake
  cases scope <;> cases scope' <;> first | rfl | exact absurd htake (by decide)

theorem opening_of_spelling {scope : Scope} {name t : Text} (h : spelling scope name <+: t) :
    opening scope <+: t := by
  rw [spelling_eq] at h
  exact (List.prefix_append _ _).trans h

/-- A hole is at the front just when its spelling is. -/
theorem hole_iff {scope : Scope} {t name : Text} :
    hole? t = some (scope, name) ↔ IsName name ∧ spelling scope name <+: t := by
  rw [← holeOf_iff]
  unfold hole?
  constructor
  · intro h
    split at h
    next =>
      split at h
      next hparameters =>
        cases h
        exact hparameters
      next =>
        obtain ⟨found, hcredential, hfound⟩ := Option.map_eq_some_iff.mp h
        cases hfound
        exact hcredential
    next => cases h
  · intro h
    have hprefix := opening_of_spelling (holeOf_iff.mp h).2
    split
    next =>
      split
      next found hparameters =>
        obtain rfl := opening_injective hprefix (opening_of_spelling (holeOf_iff.mp hparameters).2)
        rw [Option.some.inj (hparameters.symm.trans h)]
      next hparameters =>
        cases scope with
        | parameters => cases hparameters.symm.trans h
        | credential =>
            rw [h]
            rfl
    next hdollar =>
      obtain ⟨rest, rfl⟩ := hprefix
      exact absurd rfl (hdollar _)

/-! ### Pieces -/

theorem piecesOnto_acc (acc : List Piece) (skip : Nat) (t : Text) :
    piecesOnto acc skip t = acc.reverse ++ piecesOnto [] skip t := by
  induction t generalizing acc skip with
  | nil => exact (List.append_nil _).symm
  | cons r rest ih =>
      cases skip with
      | succ k => exact ih acc k
      | zero =>
          rw [piecesOnto, piecesOnto]
          split
          next scope name _ =>
            rw [ih (.hole scope name :: acc), ih [.hole scope name], List.reverse_cons,
              List.append_assoc]
            rfl
          next =>
            rw [ih (.rune r :: acc), ih [.rune r], List.reverse_cons, List.append_assoc]
            rfl

theorem piecesOnto_skip (skip : Nat) (t : Text) : piecesOnto [] skip t = pieces (t.drop skip) := by
  induction t generalizing skip with
  | nil => rw [List.drop_nil]; rfl
  | cons r rest ih =>
      cases skip with
      | zero => rfl
      | succ k => exact ih k

theorem pieces_rune {r : Rune} {rest : Text} (h : hole? (r :: rest) = none) :
    pieces (r :: rest) = .rune r :: pieces rest := by
  unfold pieces
  rw [piecesOnto, h]
  exact piecesOnto_acc [.rune r] 0 rest

theorem pieces_hole {scope : Scope} {name : Text} (hname : IsName name) (rest : Text) :
    pieces (spelling scope name ++ rest) = .hole scope name :: pieces rest := by
  have hhole := hole_iff.mpr ⟨hname, List.prefix_append (spelling scope name) rest⟩
  obtain ⟨tail, htail⟩ : ∃ tail, spelling scope name = .scalar '$' :: tail := ⟨_, rfl⟩
  rw [htail, List.cons_append] at hhole ⊢
  unfold pieces
  rw [piecesOnto, hhole]
  dsimp only
  rw [htail, piecesOnto_acc, piecesOnto_skip, List.length_cons, Nat.add_sub_cancel, List.drop_left]
  rfl

/-- A text is nothing, a hole and a text, or a rune that starts no hole and a text. -/
@[elab_as_elim]
theorem pieces_induction {motive : Text → Prop} (nil : motive [])
    (hole : ∀ scope name rest, IsName name → motive rest → motive (spelling scope name ++ rest))
    (rune : ∀ r rest, hole? (r :: rest) = none → motive rest → motive (r :: rest)) (t : Text) :
    motive t := by
  -- behind a hole the text goes on after its whole spelling, so the induction is on the length
  induction hlength : t.length using Nat.strongRecOn generalizing t with
  | ind n ih =>
      cases t with
      | nil => exact nil
      | cons r rest =>
          cases hfront : hole? (r :: rest) with
          | none => exact rune r rest hfront (ih rest.length (by rw [← hlength]; simp) rest rfl)
          | some found =>
              obtain ⟨scope, name⟩ := found
              obtain ⟨hname, tail, htail⟩ := hole_iff.mp hfront
              rw [← htail] at hlength ⊢
              refine hole scope name tail hname (ih tail.length ?_ tail rfl)
              rw [← hlength, List.length_append]
              exact Nat.lt_add_of_pos_left (Nat.succ_pos _)

/-- A rune that stands in no hole but at its front. -/
def Breaks (r : Rune) : Prop := isNameRune r = false ∧ r ≠ .scalar '\x7b' ∧ r ≠ .scalar '\x7d'

instance (r : Rune) : Decidable (Breaks r) := by unfold Breaks; infer_instance

theorem not_breaks (scope : Scope) {name : Text} (hname : IsName name) {r : Rune}
    (hr : r ∈ (spelling scope name).tail) : ¬Breaks r := by
  have hscope : ∀ s ∈ scope.name, isNameRune s = true := by cases scope <;> decide
  rintro ⟨hrune, hopen, hclose⟩
  unfold spelling at hr
  simp only [List.tail_cons, List.mem_cons, List.mem_append, List.not_mem_nil, or_false] at hr
  rcases hr with hr | hr | hr | hr | hr
  · exact hopen hr
  · exact absurd (hscope r hr) (by rw [hrune]; exact Bool.false_ne_true)
  · rw [hr] at hrune
    exact absurd hrune (by decide)
  · exact absurd (hname.2 r hr) (by rw [hrune]; exact Bool.false_ne_true)
  · exact hclose hr

theorem breaks_dollar : Breaks (.scalar '$') := by decide

/-- A hole at the front of two parts ends within the first one or reaches over the cut. -/
theorem hole_append_cases {scope : Scope} {name t u : Text} {r : Rune}
    (h : hole? (r :: t ++ u) = some (scope, name)) :
    hole? (r :: t) = some (scope, name) ∨
      ∃ a w, spelling scope name = r :: t ++ a :: w ∧ a :: w <+: u := by
  obtain ⟨hname, hspelt⟩ := hole_iff.mp h
  rcases List.prefix_or_prefix_of_prefix hspelt (List.prefix_append (r :: t) u) with hshort | ⟨w, hw⟩
  · exact .inl (hole_iff.mpr ⟨hname, hshort⟩)
  · cases w with
    | nil =>
        rw [List.append_nil] at hw
        exact .inl (hole_iff.mpr ⟨hname, hw ▸ List.prefix_rfl⟩)
    | cons a w =>
        rw [← hw, List.prefix_append_right_inj] at hspelt
        exact .inr ⟨a, w, hw.symm, hspelt⟩

theorem hole_append_left {t u : Text} {r : Rune} (h : ∀ scope name, IsName name →
      ∀ a w, spelling scope name = r :: t ++ a :: w → ¬a :: w <+: u) :
    hole? (r :: t ++ u) = hole? (r :: t) := by
  refine Option.ext fun ⟨scope, name⟩ => ⟨fun hfront => ?_, fun hfront => ?_⟩
  · rcases hole_append_cases hfront with hshort | ⟨a, w, hspelt, hover⟩
    · exact hshort
    · exact absurd hover (h scope name (hole_iff.mp hfront).1 a w hspelt)
  · obtain ⟨hname, hspelt⟩ := hole_iff.mp hfront
    exact hole_iff.mpr ⟨hname, hspelt.trans (List.prefix_append _ _)⟩

/-- No hole reaches over a cut behind which a rune breaks it. -/
theorem hole_append {s : Rune} (hs : Breaks s) (r : Rune) (t u : Text) :
    hole? (r :: t ++ s :: u) = hole? (r :: t) := by
  refine hole_append_left fun scope name hname a w hspelt hover => ?_
  obtain ⟨_, hw⟩ := hover
  obtain ⟨rfl, -⟩ := List.cons.inj hw
  refine absurd hs (not_breaks scope hname ?_)
  rw [hspelt, List.cons_append, List.tail_cons]
  exact List.mem_append_right t List.mem_cons_self

theorem pieces_append {s : Rune} (hs : Breaks s) (t u : Text) :
    pieces (t ++ s :: u) = pieces t ++ pieces (s :: u) := by
  induction t using pieces_induction with
  | nil => rfl
  | hole scope name rest hname ih =>
      rw [List.append_assoc, pieces_hole hname, pieces_hole hname, ih, List.cons_append]
  | rune r rest hfront ih =>
      have hstill := hole_append hs r rest u
      rw [hfront, List.cons_append] at hstill
      rw [List.cons_append, pieces_rune hstill, pieces_rune hfront, ih, List.cons_append]

theorem hole_of_ne {r : Rune} (hr : r ≠ .scalar '$') (t : Text) : hole? (r :: t) = none := by
  unfold hole?
  split
  next heq => exact absurd (List.cons.inj heq).1 hr
  next => rfl

/-! ### Placeholders -/

theorem placeholders_eq (t : Text) : placeholders t = (pieces t).filterMap fun
    | .rune _ => none
    | .hole scope name => some (label scope name) := rfl

theorem placeholders_rune {r : Rune} {t : Text} (h : hole? (r :: t) = none) :
    placeholders (r :: t) = placeholders t := by
  rw [placeholders_eq, pieces_rune h]
  rfl

theorem placeholders_hole {scope : Scope} {name : Text} (hname : IsName name) (t : Text) :
    placeholders (spelling scope name ++ t) = label scope name :: placeholders t := by
  rw [placeholders_eq, pieces_hole hname]
  rfl

theorem placeholders_append {s : Rune} (hs : Breaks s) (t u : Text) :
    placeholders (t ++ s :: u) = placeholders t ++ placeholders (s :: u) := by
  rw [placeholders_eq, pieces_append hs, List.filterMap_append]
  rfl

/-- Without a dollar there is no placeholder. -/
theorem placeholders_plain {t : Text} (ht : ∀ r ∈ t, r ≠ .scalar '$') (u : Text) :
    placeholders (t ++ u) = placeholders u := by
  induction t with
  | nil => rfl
  | cons r t ih =>
      obtain ⟨hr, ht⟩ := List.forall_mem_cons.mp ht
      rw [List.cons_append, placeholders_rune (hole_of_ne hr _), ih ht]

/-- A text without placeholders stands for itself. -/
theorem pieces_closed {t : Text} (ht : placeholders t = []) : pieces t = t.map .rune := by
  induction t using pieces_induction with
  | nil => rfl
  | hole scope name rest hname _ =>
      rw [placeholders_hole hname] at ht
      cases ht
  | rune r rest hfront ih =>
      rw [placeholders_rune hfront] at ht
      rw [pieces_rune hfront, ih ht, List.map_cons]

/-! ### Filling -/

variable {item : Text} {f : Filling}

theorem render_of_filled {t : Text}
    (hfilled : ∀ scope name, .hole scope name ∈ pieces t → (f.get scope name).isSome) :
    render item f t = .ok ((pieces t).flatMap (Piece.fill f)) := by
  have hclosed : openHoles f t = [] := by
    refine List.filterMap_eq_nil_iff.mpr fun p hp => ?_
    cases p with
    | rune => rfl
    | hole scope name =>
        obtain ⟨value, hvalue⟩ := Option.isSome_iff_exists.mp (hfilled scope name hp)
        dsimp only
        rw [hvalue]
        rfl
  unfold render
  rw [hclosed]

/-- Fillings that leave the same holes open fail alike. -/
theorem render_alike (item : Text) {f f' : Filling}
    (hopen : ∀ scope name, (f.get scope name).isSome = (f'.get scope name).isSome) (t : Text) :
    Alike (fun _ _ => True) (render item f t) (render item f' t) := by
  have hholes : openHoles f t = openHoles f' t := by
    refine List.filterMap_congr fun p _ => ?_
    cases p with
    | rune => rfl
    | hole scope name =>
        dsimp only
        rw [← Option.not_isSome, ← Option.not_isSome, hopen]
  unfold render
  rw [hholes]
  cases openHoles f' t with
  | nil => exact .ok trivial
  | cons hole more => exact .error _

theorem fill_runes (t : Text) : (t.map .rune).flatMap (Piece.fill f) = t := by
  induction t with
  | nil => rfl
  | cons r t ih => rw [List.map_cons, List.flatMap_cons, ih]; rfl

theorem hole_not_mem_runes (scope : Scope) (name t : Text) : .hole scope name ∉ t.map Piece.rune := by
  intro h
  obtain ⟨r, -, hr⟩ := List.mem_map.mp h
  cases hr

theorem render_closed {t : Text} (ht : placeholders t = []) : render item f t = .ok t := by
  have hpieces := pieces_closed ht
  rw [render_of_filled, hpieces, fill_runes]
  intro scope name hmem
  rw [hpieces] at hmem
  exact absurd hmem (hole_not_mem_runes scope name t)

/-- A template with one hole is filled by putting the value in the place of the hole. -/
theorem render_hole {before after value name : Text} {scope : Scope} (hbefore : placeholders before = [])
    (hafter : placeholders after = []) (hname : IsName name) (hvalue : f.get scope name = some value) :
    render item f (before ++ (spelling scope name ++ after)) = .ok (before ++ (value ++ after)) := by
  have hpieces : pieces (before ++ (spelling scope name ++ after)) =
      before.map .rune ++ .hole scope name :: after.map .rune := by
    -- the hole's own dollar ends whatever the part in front has opened
    have hcut := pieces_append breaks_dollar before ((spelling scope name).tail ++ after)
    rw [← pieces_closed hbefore, ← pieces_closed hafter, ← pieces_hole hname]
    exact hcut
  have hfill : Piece.fill f (.hole scope name) = value := by
    change (f.get scope name).getD _ = value
    rw [hvalue]
    rfl
  rw [render_of_filled, hpieces, List.flatMap_append, fill_runes, List.flatMap_cons, fill_runes, hfill]
  intro scope' name' hmem
  rw [hpieces, List.mem_append, List.mem_cons] at hmem
  rcases hmem with hmem | hmem | hmem
  · exact absurd hmem (hole_not_mem_runes scope' name' before)
  · cases hmem
    rw [hvalue]
    rfl
  · exact absurd hmem (hole_not_mem_runes scope' name' after)

end RemoteModel.Template
