import RemoteModel.Proofs.Template

/-!
The placeholders of a template as they stand in it. A text is cut at its placeholders, and the cuts meet every
place where a placeholder is spelt, from left to right. Rendering puts the values in the places of the
placeholders and keeps what is between them, or reports the placeholders without a value.
-/

namespace RemoteModel.Template

/-- A placeholder with the text in front of it, back to the placeholder before. -/
structure Cut where
  gap : Text
  scope : Scope
  name : Text

namespace Cut

def label (c : Cut) : Text := Template.label c.scope c.name

def pieces (c : Cut) : List Piece := c.gap.map .rune ++ [.hole c.scope c.name]

end Cut

/-- The text of some cuts and of the rest behind them, with every placeholder written as `value` says. -/
def assemble (value : Scope → Text → Text) (cuts : List Cut) (rest : Text) : Text :=
  cuts.flatMap (fun c => c.gap ++ value c.scope c.name) ++ rest

/-- The cuts are at the placeholders of a text, and at all of them: wherever a placeholder is spelt there is
a cut. -/
structure Dissects (cuts : List Cut) (rest t : Text) : Prop where
  names : ∀ c ∈ cuts, IsName c.name
  text : t = assemble spelling cuts rest
  all : ∀ before scope name after, IsName name → t = before ++ (spelling scope name ++ after) →
    ∃ i gap, cuts[i]? = some ⟨gap, scope, name⟩ ∧ before = assemble spelling (cuts.take i) gap

/-! ### Cuts and pieces -/

def piecesOf (cuts : List Cut) (rest : Text) : List Piece :=
  cuts.flatMap Cut.pieces ++ rest.map .rune

theorem piecesOf_cons (c : Cut) (cuts : List Cut) (rest : Text) :
    piecesOf (c :: cuts) rest =
      c.gap.map .rune ++ .hole c.scope c.name :: piecesOf cuts rest := by
  simp [piecesOf, Cut.pieces]

def Piece.write (value : Scope → Text → Text) : Piece → Text
  | .rune r => [r]
  | .hole scope name => value scope name

theorem write_runes (value : Scope → Text → Text) (t : Text) :
    (t.map .rune).flatMap (Piece.write value) = t := by
  induction t with
  | nil => rfl
  | cons r t ih => simp [Piece.write, ih]

theorem write_piecesOf (value : Scope → Text → Text) (cuts : List Cut) (rest : Text) :
    (piecesOf cuts rest).flatMap (Piece.write value) = assemble value cuts rest := by
  induction cuts with
  | nil => exact write_runes value rest
  | cons c cuts ih =>
      simp only [piecesOf_cons, List.flatMap_append, write_runes, List.flatMap_cons, ih]
      simp [assemble, Piece.write]

theorem write_pieces (t : Text) : (pieces t).flatMap (Piece.write spelling) = t := by
  induction t using pieces_induction with
  | nil => rfl
  | hole scope name rest hname ih =>
      rw [pieces_hole hname, List.flatMap_cons, ih]
      rfl
  | rune r rest hfront ih =>
      rw [pieces_rune hfront, List.flatMap_cons, ih]
      rfl

theorem isName_of_hole {t : Text} {scope : Scope} {name : Text} (h : .hole scope name ∈ pieces t) :
    IsName name := by
  induction t using pieces_induction with
  | nil => cases h
  | hole scope' name' rest hname ih =>
      rw [pieces_hole hname, List.mem_cons] at h
      rcases h with heq | h
      · cases heq
        exact hname
      · exact ih h
  | rune r rest hfront ih =>
      rw [pieces_rune hfront, List.mem_cons] at h
      exact ih (h.resolve_left nofun)

/-- The dollar of a placeholder ends whatever the text in front of it has opened. -/
theorem pieces_at {scope : Scope} {name : Text} (hname : IsName name) (before after : Text) :
    pieces (before ++ (spelling scope name ++ after)) =
      pieces before ++ .hole scope name :: pieces after := by
  have hcut := pieces_append breaks_dollar before ((spelling scope name).tail ++ after)
  rw [← pieces_hole hname after]
  exact hcut

theorem hole_of_prefix {t u : Text} {found : Scope × Text} (h : hole? t = some found) (htu : t <+: u) :
    hole? u = some found := by
  obtain ⟨scope, name⟩ := found
  obtain ⟨hname, hspelt⟩ := hole_iff.mp h
  exact hole_iff.mpr ⟨hname, hspelt.trans htu⟩

theorem placeholders_front {r : Rune} {t u : Text} (ht : placeholders t = [])
    (h : hole? (r :: (t ++ u)) = none) : placeholders (r :: t) = [] := by
  rw [placeholders_rune, ht]
  cases hfront : hole? (r :: t) with
  | none => rfl
  | some found =>
      have hlonger := hole_of_prefix hfront (u := r :: (t ++ u)) ⟨u, rfl⟩
      rw [h] at hlonger
      cases hlonger

/-- Every text has cuts between which there is no placeholder. -/
theorem exists_cuts (t : Text) : ∃ cuts rest, pieces t = piecesOf cuts rest ∧
    (∀ c ∈ cuts, placeholders c.gap = []) ∧ placeholders rest = [] := by
  induction t using pieces_induction with
  | nil => exact ⟨[], [], rfl, nofun, rfl⟩
  | hole scope name rest hname ih =>
      obtain ⟨cuts, last, hpieces, hgaps, hlast⟩ := ih
      refine ⟨⟨[], scope, name⟩ :: cuts, last, ?_, List.forall_mem_cons.mpr ⟨rfl, hgaps⟩, hlast⟩
      rw [pieces_hole hname, hpieces, piecesOf_cons]
      rfl
  | rune r rest hfront ih =>
      obtain ⟨cuts, last, hpieces, hgaps, hlast⟩ := ih
      have htext := write_pieces rest
      rw [hpieces, write_piecesOf] at htext
      rw [pieces_rune hfront, hpieces]
      cases cuts with
      | nil =>
          refine ⟨[], r :: last, rfl, nofun, placeholders_front (u := []) hlast ?_⟩
          rw [List.append_nil, show last = rest from htext]
          exact hfront
      | cons c cuts =>
          obtain ⟨hgap, hgaps⟩ := List.forall_mem_cons.mp hgaps
          refine ⟨⟨r :: c.gap, c.scope, c.name⟩ :: cuts, last, ?_,
            List.forall_mem_cons.mpr ⟨?_, hgaps⟩, hlast⟩
          · rw [piecesOf_cons, piecesOf_cons]
            rfl
          · refine placeholders_front hgap
              (u := spelling c.scope c.name ++ assemble spelling cuts last) ?_
            rw [← hfront, ← htext]
            simp [assemble]

/-- A hole among the pieces of some cuts is that of one of them. -/
theorem piecesOf_split {cuts : List Cut} {rest : Text} {scope : Scope} {name : Text} {ps qs : List Piece}
    (h : piecesOf cuts rest = ps ++ .hole scope name :: qs) :
    ∃ i gap, cuts[i]? = some ⟨gap, scope, name⟩ ∧ ps = piecesOf (cuts.take i) gap := by
  induction cuts generalizing ps with
  | nil =>
      have hmem : .hole scope name ∈ rest.map Piece.rune := by
        rw [show rest.map Piece.rune = ps ++ .hole scope name :: qs from h]
        simp
      exact absurd hmem (hole_not_mem_runes scope name rest)
  | cons c cuts ih =>
      rw [piecesOf_cons] at h
      have hself (hgap : ps = c.gap.map .rune) (hhole : Piece.hole c.scope c.name = .hole scope name) :
          ∃ i gap, (c :: cuts)[i]? = some ⟨gap, scope, name⟩ ∧
            ps = piecesOf ((c :: cuts).take i) gap := by
        cases hhole
        exact ⟨0, c.gap, rfl, hgap⟩
      rcases List.append_eq_append_iff.mp h with ⟨as, hps, htail⟩ | ⟨bs, hgap, htail⟩
      · cases as with
        | nil =>
            obtain ⟨hhole, -⟩ := List.cons.inj htail
            exact hself (by rw [hps, List.append_nil]) hhole
        | cons a as =>
            rw [List.cons_append] at htail
            obtain ⟨rfl, hmore⟩ := List.cons.inj htail
            obtain ⟨i, gap, hat, has⟩ := ih hmore
            refine ⟨i + 1, gap, hat, ?_⟩
            rw [hps, has, List.take_succ_cons, piecesOf_cons]
      · cases bs with
        | nil =>
            obtain ⟨hhole, -⟩ := List.cons.inj htail
            exact hself (by rw [hgap, List.append_nil]) hhole.symm
        | cons b bs =>
            obtain ⟨rfl, -⟩ := List.cons.inj htail
            have hmem : .hole scope name ∈ c.gap.map Piece.rune := by simp [hgap]
            exact absurd hmem (hole_not_mem_runes scope name c.gap)

theorem dissects_of_pieces {t : Text} {cuts : List Cut} {rest : Text}
    (h : pieces t = piecesOf cuts rest) : Dissects cuts rest t where
  names c hc := by
    refine isName_of_hole (show .hole c.scope c.name ∈ pieces t from ?_)
    rw [h]
    refine List.mem_append_left _ (List.mem_flatMap.mpr ⟨c, hc, ?_⟩)
    simp [Cut.pieces]
  text := by rw [← write_piecesOf, ← h, write_pieces]
  all before scope name after hname ht := by
    rw [ht, pieces_at hname] at h
    obtain ⟨i, gap, hat, hbefore⟩ := piecesOf_split h.symm
    exact ⟨i, gap, hat, by rw [← write_piecesOf, ← hbefore, write_pieces]⟩

/-- A placeholder of a cut is spelt in the text. -/
theorem Dissects.spelt {cuts : List Cut} {rest t : Text} (h : Dissects cuts rest t) {c : Cut}
    (hc : c ∈ cuts) : IsName c.name ∧
      ∃ before after, t = before ++ (spelling c.scope c.name ++ after) := by
  refine ⟨h.names c hc, ?_⟩
  obtain ⟨cuts', cuts'', rfl⟩ := List.append_of_mem hc
  refine ⟨assemble spelling cuts' c.gap, assemble spelling cuts'' rest, ?_⟩
  rw [h.text]
  simp [assemble]

/-! ### What is found and what is filled -/

theorem placeholders_piecesOf {t : Text} {cuts : List Cut} {rest : Text}
    (h : pieces t = piecesOf cuts rest) : placeholders t = cuts.map Cut.label := by
  rw [placeholders_eq, h]
  clear h
  induction cuts with
  | nil => simp [piecesOf, List.filterMap_map]
  | cons c cuts ih =>
      rw [piecesOf_cons, List.filterMap_append, List.filterMap_cons, ih]
      simp [List.filterMap_map, Cut.label]

section

variable (f : Filling)

def isOpen (c : Cut) : Bool := (f.get c.scope c.name).isNone

theorem openHoles_piecesOf {t : Text} {cuts : List Cut} {rest : Text}
    (h : pieces t = piecesOf cuts rest) :
    openHoles f t = (cuts.filter (isOpen f)).map Cut.label := by
  unfold openHoles
  rw [h]
  clear h
  induction cuts with
  | nil => simp [piecesOf, List.filterMap_map]
  | cons c cuts ih =>
      rw [piecesOf_cons, List.filterMap_append, List.filterMap_cons, ih]
      cases hopen : (f.get c.scope c.name).isNone <;>
        simp [List.filterMap_map, Cut.label, isOpen, hopen]

variable {item t : Text} {cuts : List Cut} {rest : Text}

theorem render_filled (h : pieces t = piecesOf cuts rest) {value : Scope → Text → Text}
    (hvalue : ∀ c ∈ cuts, f.get c.scope c.name = some (value c.scope c.name)) :
    render item f t = .ok (assemble value cuts rest) := by
  have hopen : cuts.filter (isOpen f) = [] := by
    refine List.filter_eq_nil_iff.mpr fun c hc => ?_
    simp [isOpen, hvalue c hc]
  have hfill : (piecesOf cuts rest).flatMap (Piece.fill f) = assemble value cuts rest := by
    clear h hopen
    induction cuts with
    | nil => exact fill_runes rest
    | cons c cuts ih =>
        obtain ⟨hfirst, hmore⟩ := List.forall_mem_cons.mp hvalue
        simp only [piecesOf_cons, List.flatMap_append, fill_runes, List.flatMap_cons, ih hmore]
        simp [assemble, Piece.fill, hfirst]
  unfold render
  rw [openHoles_piecesOf f h, hopen, h, hfill]
  rfl

theorem render_open (h : pieces t = piecesOf cuts rest) {c : Cut} (hc : c ∈ cuts)
    (hopen : isOpen f c = true) :
    render item f t = .error (.unfilled item ((cuts.filter (isOpen f)).map Cut.label)) := by
  have hmem : c ∈ cuts.filter (isOpen f) := List.mem_filter.mpr ⟨hc, hopen⟩
  unfold render
  rw [openHoles_piecesOf f h]
  cases hholes : cuts.filter (isOpen f) with
  | nil =>
      rw [hholes] at hmem
      cases hmem
  | cons hole more => rfl

end

/-! ### Mappings -/

/-- The mappings that a template is rendered with; either may be left out. -/
structure Mappings where
  parameters : Option (Entries Json)
  credential : Option (Entries Json)

namespace Mappings

variable (m : Mappings)

def filling : Filling :=
  ⟨m.parameters.elim .none .ofEntries, m.credential.elim .none .ofEntries⟩

def ofScope : Scope → Option (Entries Json)
  | .parameters => m.parameters
  | .credential => m.credential

/-- The value of a placeholder in its own scope; a null is none. -/
def value? (scope : Scope) (name : Text) : Option Json :=
  ((m.ofScope scope).bind fun es => es.get? name).filter fun v => !v.isNull

theorem get_filling (scope : Scope) (name : Text) :
    m.filling.get scope name = (m.value? scope name).map Json.shown := by
  have hentries (es : Entries Json) : Values.ofEntries es name =
      ((es.get? name).filter fun v => !v.isNull).map Json.shown := by
    unfold Values.ofEntries
    cases es.get? name with
    | none => rfl
    | some v => cases v <;> rfl
  obtain ⟨parameters, credential⟩ := m
  cases scope with
  | parameters =>
      cases parameters with
      | none => rfl
      | some es => exact hentries es
  | credential =>
      cases credential with
      | none => rfl
      | some es => exact hentries es

theorem isOpen_filling (c : Cut) : isOpen m.filling c = (m.value? c.scope c.name).isNone := by
  simp [isOpen, m.get_filling]

end Mappings

/-- The placeholders that are found are those that are spelt in the template, from left to right. Rendering
succeeds just when each of them has a value, and puts the values in their places; otherwise it reports
those without a value, as often as they are spelt. -/
theorem render_placeholders (item t : Text) (m : Mappings) :
    ∃ cuts rest, Dissects cuts rest t ∧ placeholders t = cuts.map Cut.label ∧
      ((∃ r, render item m.filling t = .ok r) ↔
        ∀ before scope name after, IsName name → t = before ++ (spelling scope name ++ after) →
          m.value? scope name ≠ none) ∧
      (∀ value : Scope → Text → Json,
        (∀ c ∈ cuts, m.value? c.scope c.name = some (value c.scope c.name)) →
          render item m.filling t =
            .ok (assemble (fun scope name => (value scope name).shown) cuts rest)) ∧
      ((∃ c ∈ cuts, m.value? c.scope c.name = none) →
        ∃ f, render item m.filling t = .error f ∧ f.kind = .own .missingParameter ∧
          f.placeholders =
            (cuts.filter fun c => (m.value? c.scope c.name).isNone).map Cut.label) := by
  obtain ⟨cuts, rest, hpieces, -, -⟩ := exists_cuts t
  have hdissects := dissects_of_pieces hpieces
  have hfilled (value : Scope → Text → Json)
      (hvalue : ∀ c ∈ cuts, m.value? c.scope c.name = some (value c.scope c.name)) :
      render item m.filling t =
        .ok (assemble (fun scope name => (value scope name).shown) cuts rest) := by
    refine render_filled m.filling hpieces fun c hc => ?_
    rw [m.get_filling, hvalue c hc]
    rfl
  have hopen {c : Cut} (hc : c ∈ cuts) (hnone : m.value? c.scope c.name = none) :
      render item m.filling t = .error (.unfilled item
        ((cuts.filter fun c => (m.value? c.scope c.name).isNone).map Cut.label)) := by
    have hreport : render item m.filling t = .error (.unfilled item
        ((cuts.filter (isOpen m.filling)).map Cut.label)) :=
      render_open m.filling hpieces hc (by
        rw [m.isOpen_filling, hnone]
        rfl)
    rwa [funext m.isOpen_filling] at hreport
  refine ⟨cuts, rest, hdissects, placeholders_piecesOf hpieces, ⟨?_, ?_⟩, hfilled, ?_⟩
  · rintro ⟨r, hr⟩ before scope name after hname ht hnone
    obtain ⟨i, gap, hat, -⟩ := hdissects.all before scope name after hname ht
    have herror := hopen (List.mem_of_getElem? hat) hnone
    rw [hr] at herror
    cases herror
  · intro hall
    refine ⟨_, hfilled (fun scope name => (m.value? scope name).getD .null) fun c hc => ?_⟩
    obtain ⟨hname, before, after, ht⟩ := hdissects.spelt hc
    obtain ⟨v, hv⟩ := Option.ne_none_iff_exists'.mp (hall before c.scope c.name after hname ht)
    simp [hv]
  · rintro ⟨c, hc, hnone⟩
    exact ⟨_, hopen hc hnone, rfl, rfl⟩

end RemoteModel.Template
