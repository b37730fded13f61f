import Mathlib.Data.List.Induction
import RemoteModel.Proofs.Files.Name
import RemoteModel.Proofs.Files.Path
import RemoteModel.Proofs.Files.Route

/-!
What paths name. A path names a node if following it ends there; what lies below a path is found only
through a folder, and a tree that grows keeps what was found.
-/

namespace RemoteModel

theorem Utf8.encodeLoose_append (s t : Text) :
    encodeLoose (s ++ t) = encodeLoose s ++ encodeLoose t := by
  simp [encodeLoose]

namespace Path

/-- Paths that are short enough to be looked up. -/
def Fits (p : Path) : Prop := (FileName.bytes p.text).length ≤ Tree.pathLimit

theorem text_extends (anchor : Anchor) (front back : List Text)
    (hfront : anchor = .here → front ≠ []) :
    ∃ more, (Path.mk anchor (front ++ back)).text = (Path.mk anchor front).text ++ more := by
  have htext (parts : List Text) (h : anchor = .here → parts ≠ []) :
      (Path.mk anchor parts).text = anchor.text ++ Text.join "/" parts := by
    cases anchor with
    | here => exact text_of_parts (h rfl)
    | root => rfl
    | twin => rfl
  rw [htext front hfront, htext (front ++ back) (by simp +contextual [hfront])]
  by_cases hback : back = []
  · exact ⟨[], by simp [hback]⟩
  · by_cases hf : front = []
    · exact ⟨Text.join "/" back, by simp [hf, Text.join]⟩
    · refine ⟨Text.ofString "/" ++ Text.join "/" back, ?_⟩
      rw [List.append_assoc]
      congr 1
      clear htext hfront
      induction front with
      | nil => exact absurd rfl hf
      | cons part front ih =>
          cases front with
          | nil =>
              simp only [Text.join, List.singleton_append]
              rw [List.intercalate_cons_of_ne_nil hback, List.intercalate_singleton,
                List.append_assoc]
          | cons next front =>
              simp only [Text.join, List.cons_append] at ih ⊢
              rw [List.intercalate_cons_cons, List.intercalate_cons_cons, ih (by simp)]
              simp only [List.append_assoc]

theorem Fits.of_append {anchor : Anchor} {front back : List Text}
    (h : Fits ⟨anchor, front ++ back⟩) : Fits ⟨anchor, front⟩ := by
  by_cases hdot : anchor = .here ∧ front = []
  · obtain ⟨rfl, rfl⟩ := hdot
    unfold Fits
    decide
  · obtain ⟨more, hmore⟩ := text_extends anchor front back (by
      intro ha hf
      exact hdot ⟨ha, hf⟩)
    unfold Fits at h ⊢
    rw [hmore, FileName.bytes_append, List.length_append] at h
    omega

end Path

namespace Place

/-- The place that names lead to that lead down. -/
def along (base : Place) (names : List Text) : Place := base ++ names.map FileName.settled

@[simp] theorem along_nil (base : Place) : base.along [] = base := List.append_nil base

theorem along_append (base : Place) (names more : List Text) :
    base.along (names ++ more) = (base.along names).along more := by
  simp [along]

theorem along_singleton (base : Place) (name : Text) :
    base.along [name] = base ++ [FileName.settled name] := rfl

theorem along_ne_nil (base : Place) {names : List Text} (h : names ≠ []) : base.along names ≠ [] := by
  simp [along, h]

theorem prefix_along (base : Place) (names : List Text) : base <+: base.along names :=
  List.prefix_append ..

theorem along_prefix (base : Place) {names more : List Text} (h : names <+: more) :
    base.along names <+: base.along more := by
  obtain ⟨rest, rfl⟩ := h
  rw [along_append]
  exact prefix_along ..

theorem bytes_prefix_of_along {base : Place} {names more : List Text}
    (h : base.along names <+: base.along more) :
    names.map FileName.bytes <+: more.map FileName.bytes := by
  have hbytes := ((List.prefix_append_right_inj base).mp h).map FileName.bytes
  simpa only [List.map_map, Function.comp_def, FileName.bytes_settled] using hbytes

end Place

namespace Tree

theorem locate_eq_ok_iff {t : Tree} {toEnd : Bool} {p : Path} {place : Place} :
    t.locate toEnd p = .ok place ↔
      p.Fits ∧ t.Route toEnd (linkLimit + 1) [] p.parts place := by
  unfold locate Path.Fits
  split
  next h => simp [Nat.not_le.mpr h]
  next h => simp [Nat.not_lt.mp h, walk_eq_ok_iff]

theorem find_eq_ok_iff {t : Tree} {p : Path} {node : Node} :
    t.find p = .ok node ↔ ∃ place, t.locate true p = .ok place ∧ t.node? place = some node := by
  unfold find
  cases h : t.locate true p with
  | error f => simp [bind, Except.bind]
  | ok place =>
      simp only [bind, Except.bind, Except.ok.injEq, exists_eq_left']
      cases hnode : t.node? place with
      | none => simp [throw, throwThe, MonadExceptOf.throw]
      | some found => simp [pure, Except.pure]

theorem hasFolder_iff {t : Tree} {p : Path} :
    t.hasFolder p = true ↔ ∃ place, t.locate true p = .ok place ∧ t.node? place = some .folder := by
  rw [← find_eq_ok_iff]
  unfold hasFolder
  split <;> simp_all

/-- Whether something is found under a path, all links followed. -/
def Names (t : Tree) (p : Path) : Prop := ∃ node, t.find p = .ok node

instance (t : Tree) (p : Path) : Decidable (t.Names p) :=
  match h : t.find p with
  | .ok node => isTrue ⟨node, h⟩
  | .error _ => isFalse fun ⟨_, hnode⟩ => nomatch h.symm.trans hnode

theorem names_iff {t : Tree} {p : Path} :
    t.Names p ↔ ∃ place, t.locate true p = .ok place ∧ t.node? place ≠ none := by
  simp only [Names, find_eq_ok_iff, Option.ne_none_iff_exists']
  exact ⟨fun ⟨node, place, h, hn⟩ => ⟨place, h, node, hn⟩,
    fun ⟨place, h, node, hn⟩ => ⟨node, place, h, hn⟩⟩

theorem names_of_hasFolder {t : Tree} {p : Path} (h : t.hasFolder p = true) : t.Names p := by
  obtain ⟨place, hplace, hnode⟩ := hasFolder_iff.mp h
  exact ⟨.folder, find_eq_ok_iff.mpr ⟨place, hplace, hnode⟩⟩

theorem not_hasFolder_of_not_names {t : Tree} {p : Path} (h : ¬t.Names p) :
    t.hasFolder p = false := by
  by_contra hfolder
  exact h (names_of_hasFolder (by simpa using hfolder))

theorem locate_unique {t : Tree} {p : Path} {toEnd : Bool} {place other : Place}
    (h : t.locate toEnd p = .ok place) (h' : t.locate toEnd p = .ok other) : place = other :=
  Except.ok.inj (h.symm.trans h')

theorem hasFolder_of_locate_append {t : Tree} {toEnd : Bool} {anchor : Anchor}
    {front back : List Text} {place : Place} (hback : back ≠ [])
    (h : t.locate toEnd ⟨anchor, front ++ back⟩ = .ok place) :
    t.hasFolder ⟨anchor, front⟩ = true := by
  obtain ⟨hfits, hroute⟩ := locate_eq_ok_iff.mp h
  obtain ⟨folder, hfront, hfolder⟩ := hroute.cut rfl rfl hback
  exact hasFolder_iff.mpr ⟨folder, locate_eq_ok_iff.mpr ⟨hfits.of_append, hfront⟩, hfolder⟩

theorem not_names_append {t : Tree} {anchor : Anchor} {front back : List Text} (hback : back ≠ [])
    (h : t.hasFolder ⟨anchor, front⟩ = false) : ¬t.Names ⟨anchor, front ++ back⟩ := by
  intro hnames
  obtain ⟨place, hplace, _⟩ := names_iff.mp hnames
  rw [hasFolder_of_locate_append hback hplace] at h
  exact absurd h (by simp)

theorem locate_append {t : Tree} {toEnd : Bool} {anchor : Anchor} {front : List Text} {name : Text}
    {folder place : Place} (hfront : t.locate true ⟨anchor, front⟩ = .ok folder)
    (hfolder : t.node? folder = some .folder) (hname : name ≠ twoDots)
    (hend : toEnd = true → ∀ target, t.node? (folder.along [name]) ≠ some (.link target))
    (h : t.locate toEnd ⟨anchor, front ++ [name]⟩ = .ok place) :
    place = folder.along [name] := by
  obtain ⟨_, hroute⟩ := locate_eq_ok_iff.mp h
  obtain ⟨_, hroute'⟩ := locate_eq_ok_iff.mp hfront
  have hstep : IsStep name := (hroute.isStep (by simp)).resolve_left hname
  exact hroute.unique (hroute'.append hfolder hstep hend)

theorem locate_false_of_true {t : Tree} {p : Path} {place : Place}
    (h : t.locate true p = .ok place) : ∃ other, t.locate false p = .ok other := by
  obtain ⟨hfits, hroute⟩ := locate_eq_ok_iff.mp h
  obtain ⟨other, hother⟩ := hroute.toLast
  exact ⟨other, locate_eq_ok_iff.mpr ⟨hfits, hother⟩⟩

def Extends (t' t : Tree) : Prop :=
  ∀ place node, t.node? place = some node → t'.node? place = some node

theorem Extends.refl (t : Tree) : t.Extends t := fun _ _ h => h

theorem Extends.trans {t t' t'' : Tree} (h : t''.Extends t') (h' : t'.Extends t) : t''.Extends t :=
  fun place node hn => h place node (h' place node hn)

theorem Extends.locate {t t' : Tree} (h : t'.Extends t) {p : Path} {toEnd : Bool} {place : Place}
    (hplace : t.locate toEnd p = .ok place) (hnode : t.node? place ≠ none) :
    t'.locate toEnd p = .ok place := by
  obtain ⟨hfits, hroute⟩ := locate_eq_ok_iff.mp hplace
  refine locate_eq_ok_iff.mpr ⟨hfits, hroute.transfer (fun q node hq _ => h q node hq) ?_⟩
  rintro rfl target hlink
  obtain ⟨node, hn⟩ := Option.ne_none_iff_exists'.mp hnode
  have hnode' := h place node hn
  rw [hlink] at hnode'
  exact hroute.notLink rfl target (hn.trans (Option.some.inj hnode' ▸ rfl))

theorem Extends.find {t t' : Tree} (h : t'.Extends t) {p : Path} {node : Node}
    (hfind : t.find p = .ok node) : t'.find p = .ok node := by
  obtain ⟨place, hplace, hnode⟩ := find_eq_ok_iff.mp hfind
  exact find_eq_ok_iff.mpr ⟨place, h.locate hplace (by simp [hnode]), h _ _ hnode⟩

theorem Extends.hasFolder {t t' : Tree} (h : t'.Extends t) {p : Path}
    (hp : t.hasFolder p = true) : t'.hasFolder p = true := by
  obtain ⟨place, hplace, hnode⟩ := hasFolder_iff.mp hp
  exact hasFolder_iff.mpr ⟨place, h.locate hplace (by simp [hnode]), h _ _ hnode⟩

theorem Extends.not_hasFolder {t t' : Tree} (h : t'.Extends t) {p : Path}
    (hp : t'.hasFolder p = false) : t.hasFolder p = false := by
  by_contra hthere
  rw [h.hasFolder (by simpa using hthere)] at hp
  exact absurd hp (by simp)

theorem node?_of_node?_append {t : Tree} (place below : Place)
    (h : t.node? (place ++ below) ≠ none) : t.node? place ≠ none := by
  induction below using List.reverseRecOn with
  | nil => simpa using h
  | append_singleton below name ih =>
      rw [← List.append_assoc] at h
      exact ih (by simp [node?_of_append h])

theorem node?_append_of_not_folder {t : Tree} {place below : Place}
    (h : t.node? place ≠ some .folder) (hbelow : below ≠ []) : t.node? (place ++ below) = none := by
  by_contra hnode
  obtain ⟨name, below, rfl⟩ := List.exists_cons_of_ne_nil hbelow
  have hone : t.node? (place ++ [name]) ≠ none :=
    node?_of_node?_append _ below (by simpa using hnode)
  exact h (node?_of_append hone)

end Tree

end RemoteModel
