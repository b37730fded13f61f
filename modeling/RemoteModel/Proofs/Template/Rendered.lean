import RemoteModel.Proofs.Template.Occurrences

/-!
Rendered texts as templates. Where no value and nothing in front of a placeholder ends in an unfinished
placeholder, the placeholders of a rendered text are those of its values, so that rendering it again is
rendering its values.
-/

namespace RemoteModel.Template

/-- The text ends in a placeholder that is not finished. -/
def Opens (t : Text) : Prop :=
  ∃ scope name head tail, IsName name ∧ head ≠ [] ∧ tail ≠ [] ∧
    spelling scope name = head ++ tail ∧ head <:+ t

theorem Opens.of_suffix {t u : Text} (h : Opens t) (htu : t <:+ u) : Opens u := by
  obtain ⟨scope, name, head, tail, hname, hhead, htail, hspelt, hend⟩ := h
  exact ⟨scope, name, head, tail, hname, hhead, htail, hspelt, hend.trans htu⟩

theorem hole_append_shut {t : Text} {r : Rune} (h : ¬Opens (r :: t)) (u : Text) :
    hole? (r :: t ++ u) = hole? (r :: t) :=
  hole_append_left fun scope name hname a w hspelt _ =>
    h ⟨scope, name, r :: t, a :: w, hname, List.cons_ne_nil _ _, List.cons_ne_nil _ _, hspelt,
      List.suffix_rfl⟩

theorem pieces_append_shut {t : Text} (h : ¬Opens t) (u : Text) :
    pieces (t ++ u) = pieces t ++ pieces u := by
  induction t using pieces_induction with
  | nil => rfl
  | hole scope name rest hname ih =>
      have hrest : ¬Opens rest := fun hopens => h (hopens.of_suffix (List.suffix_append _ _))
      rw [List.append_assoc, pieces_hole hname, pieces_hole hname, ih hrest, List.cons_append]
  | rune r rest hfront ih =>
      have hrest : ¬Opens rest := fun hopens => h (hopens.of_suffix (List.suffix_cons _ _))
      have hstill := hole_append_shut h u
      rw [hfront, List.cons_append] at hstill
      rw [List.cons_append, pieces_rune hstill, pieces_rune hfront, ih hrest, List.cons_append]

/-- No placeholder reaches over an edge of a value that is put in. -/
def Shut (value : Scope → Text → Text) (cuts : List Cut) : Prop :=
  ∀ c ∈ cuts, ¬Opens c.gap ∧ ¬Opens (value c.scope c.name)

theorem pieces_assemble {value : Scope → Text → Text} {cuts : List Cut} {rest : Text}
    (hshut : Shut value cuts) (hgaps : ∀ c ∈ cuts, placeholders c.gap = [])
    (hrest : placeholders rest = []) :
    pieces (assemble value cuts rest) =
      cuts.flatMap (fun c => c.gap.map .rune ++ pieces (value c.scope c.name)) ++
        rest.map .rune := by
  induction cuts with
  | nil => exact pieces_closed hrest
  | cons c cuts ih =>
      obtain ⟨⟨hgap, hvalue⟩, hmore⟩ := List.forall_mem_cons.mp hshut
      obtain ⟨hclosed, hgaps⟩ := List.forall_mem_cons.mp hgaps
      have htext : assemble value (c :: cuts) rest =
          c.gap ++ (value c.scope c.name ++ assemble value cuts rest) := by
        simp [assemble]
      rw [htext, pieces_append_shut hgap, pieces_append_shut hvalue, pieces_closed hclosed,
        ih hmore hgaps]
      simp

variable {item : Text} {f : Filling}

theorem openHoles_eq (f : Filling) (t : Text) : openHoles f t = (pieces t).filterMap fun
    | .rune _ => none
    | .hole scope name => if (f.get scope name).isNone then some (label scope name) else none := rfl

theorem render_eq_ok {t r : Text} :
    render item f t = .ok r ↔ openHoles f t = [] ∧ r = (pieces t).flatMap (Piece.fill f) := by
  unfold render
  cases openHoles f t with
  | nil => simp [eq_comm]
  | cons => simp

theorem openHoles_runes (f : Filling) (t : Text) : ((t.map Piece.rune).filterMap fun
    | .rune _ => none
    | .hole scope name =>
        if (f.get scope name).isNone then some (label scope name) else none) = [] := by
  simp [List.filterMap_map]

/-- Rendering a text that is assembled so is rendering the values in it. -/
theorem openHoles_assemble {value : Scope → Text → Text} {cuts : List Cut} {rest : Text}
    (hpieces : pieces (assemble value cuts rest) =
      cuts.flatMap (fun c => c.gap.map .rune ++ pieces (value c.scope c.name)) ++ rest.map .rune) :
    openHoles f (assemble value cuts rest) =
      cuts.flatMap fun c => openHoles f (value c.scope c.name) := by
  rw [openHoles_eq, hpieces, List.filterMap_append, openHoles_runes, List.append_nil,
    List.filterMap_flatMap]
  simp only [List.filterMap_append, openHoles_runes, List.nil_append, openHoles_eq]

theorem placeholders_assemble {value : Scope → Text → Text} {cuts : List Cut} {rest : Text}
    (hpieces : pieces (assemble value cuts rest) =
      cuts.flatMap (fun c => c.gap.map .rune ++ pieces (value c.scope c.name)) ++ rest.map .rune) :
    placeholders (assemble value cuts rest) =
      cuts.flatMap fun c => placeholders (value c.scope c.name) := by
  rw [placeholders_eq, hpieces, List.filterMap_append, List.filterMap_flatMap]
  simp [List.filterMap_append, List.filterMap_map, placeholders_eq]

theorem render_assemble {value again : Scope → Text → Text} {cuts : List Cut} {rest : Text}
    (hpieces : pieces (assemble value cuts rest) =
      cuts.flatMap (fun c => c.gap.map .rune ++ pieces (value c.scope c.name)) ++ rest.map .rune)
    (hagain : ∀ c ∈ cuts, render item f (value c.scope c.name) = .ok (again c.scope c.name)) :
    render item f (assemble value cuts rest) = .ok (assemble again cuts rest) := by
  refine render_eq_ok.mpr ⟨?_, ?_⟩
  · rw [openHoles_assemble hpieces]
    exact List.flatMap_eq_nil_iff.mpr fun c hc => (render_eq_ok.mp (hagain c hc)).1
  · rw [hpieces, List.flatMap_append, List.flatMap_assoc, fill_runes]
    unfold assemble
    refine congrArg (· ++ rest) (List.flatMap_congr fun c hc => ?_)
    rw [List.flatMap_append, fill_runes, ← (render_eq_ok.mp (hagain c hc)).2]

theorem render_assemble_error {value : Scope → Text → Text} {cuts : List Cut} {rest : Text}
    (hpieces : pieces (assemble value cuts rest) =
      cuts.flatMap (fun c => c.gap.map .rune ++ pieces (value c.scope c.name)) ++ rest.map .rune)
    {r : Text} (h : render item f (assemble value cuts rest) = .ok r) {c : Cut} (hc : c ∈ cuts) :
    ∃ again, render item f (value c.scope c.name) = .ok again := by
  have hclosed := (render_eq_ok.mp h).1
  rw [openHoles_assemble hpieces] at hclosed
  exact ⟨_, render_eq_ok.mpr ⟨List.flatMap_eq_nil_iff.mp hclosed c hc, rfl⟩⟩

theorem render_cuts {t r : Text} {cuts : List Cut} {rest : Text}
    (hpieces : pieces t = piecesOf cuts rest) (h : render item f t = .ok r) :
    ∃ value : Scope → Text → Text,
      (∀ c ∈ cuts, f.get c.scope c.name = some (value c.scope c.name)) ∧
        r = assemble value cuts rest := by
  let value (scope : Scope) (name : Text) : Text := (f.get scope name).getD []
  have hvalue : ∀ c ∈ cuts, f.get c.scope c.name = some (value c.scope c.name) := fun c hc => by
    have hopen := (render_eq_ok.mp h).1
    rw [openHoles_piecesOf f hpieces, List.map_eq_nil_iff, List.filter_eq_nil_iff] at hopen
    obtain ⟨v, hv⟩ : ∃ v, f.get c.scope c.name = some v := by
      simpa [isOpen, Option.ne_none_iff_exists'] using hopen c hc
    simp [value, hv]
  refine ⟨value, hvalue, ?_⟩
  have hfilled : render item f t = .ok (assemble value cuts rest) := render_filled f hpieces hvalue
  exact Except.ok.inj (h.symm.trans hfilled)

/-- Rendering a rendered text again. It stays as it is when each placeholder spelt in it stands for itself;
and where no placeholder reaches over an edge of a value, the placeholders spelt in it are those of the
values, and rendering it again is rendering the values. -/
theorem render_again {t r : Text} (h : render item f t = .ok r) :
    ((∀ before scope name after, IsName name → r = before ++ (spelling scope name ++ after) →
        f.get scope name = some (spelling scope name)) → render item f r = .ok r) ∧
      ∃ cuts rest value, Dissects cuts rest t ∧
        (∀ c ∈ cuts, f.get c.scope c.name = some (value c.scope c.name)) ∧
        r = assemble value cuts rest ∧
        (Shut value cuts →
          placeholders r = cuts.flatMap (fun c => placeholders (value c.scope c.name)) ∧
          ((∃ r', render item f r = .ok r') ↔
            ∀ c ∈ cuts, ∃ v, render item f (value c.scope c.name) = .ok v) ∧
          ∀ again : Scope → Text → Text,
            (∀ c ∈ cuts, render item f (value c.scope c.name) = .ok (again c.scope c.name)) →
              render item f r = .ok (assemble again cuts rest)) := by
  constructor
  · intro hself
    obtain ⟨cuts, rest, hpieces, -, -⟩ := exists_cuts r
    have hdissects := dissects_of_pieces hpieces
    have hstays : render item f r = .ok (assemble spelling cuts rest) :=
      render_filled f hpieces fun c hc => by
        obtain ⟨hname, before, after, hspelt⟩ := hdissects.spelt hc
        exact hself before c.scope c.name after hname hspelt
    rwa [← hdissects.text] at hstays
  · obtain ⟨cuts, rest, hpieces, hgaps, hrest⟩ := exists_cuts t
    obtain ⟨value, hvalue, rfl⟩ := render_cuts hpieces h
    refine ⟨cuts, rest, value, dissects_of_pieces hpieces, hvalue, rfl, fun hshut => ?_⟩
    have hagain := pieces_assemble hshut hgaps hrest
    refine ⟨placeholders_assemble hagain, ⟨fun ⟨r', hr'⟩ c hc => ?_, fun hall => ?_⟩,
      fun again => render_assemble hagain⟩
    · exact render_assemble_error hagain hr' hc
    · let again (scope : Scope) (name : Text) : Text :=
        (render item f (value scope name)).toOption.getD []
      refine ⟨assemble again cuts rest, render_assemble hagain fun c hc => ?_⟩
      obtain ⟨v, hv⟩ := hall c hc
      simp [again, hv, Except.toOption]

def greeting : Text :=
  "Bearer " ++ spelling .credential "key" ++ " for " ++ spelling .parameters "model"

def greeted : Mappings := ⟨some [("model", .str "m")], some [("key", .str "k-1")]⟩

theorem greeting_rendered_again : render "header" greeted.filling greeting = .ok "Bearer k-1 for m" ∧
    render "header" greeted.filling "Bearer k-1 for m" = .ok "Bearer k-1 for m" := by
  have hrendered : render "header" greeted.filling greeting = .ok "Bearer k-1 for m" := by decide
  refine ⟨hrendered, (render_again hrendered).1 fun before scope name after _ htext => ?_⟩
  have hplain : Rune.scalar '$' ∉ Text.ofString "Bearer k-1 for m" := by decide
  rw [htext] at hplain
  simp [spelling] at hplain

/-- A value may spell a placeholder, which is filled when the rendered text is rendered again. -/
theorem value_rendered_again : ¬∀ (item t r : Text) (m : Mappings),
    render item m.filling t = .ok r → render item m.filling r = .ok r := by
  intro hall
  let m : Mappings :=
    ⟨some [("a", .str (spelling .parameters "b")), ("b", .str "x")], none⟩
  have hfirst : render "template" m.filling (spelling .parameters "a") =
      .ok (spelling .parameters "b") := by
    decide
  have hagain : render "template" m.filling (spelling .parameters "b") = .ok "x" := by decide
  have hstays := hall "template" (spelling .parameters "a") (spelling .parameters "b") m hfirst
  rw [hagain] at hstays
  exact absurd (Except.ok.inj hstays) (by decide)

end RemoteModel.Template
