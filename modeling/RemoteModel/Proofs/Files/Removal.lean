import RemoteModel.Proofs.Files.Stored

/-!
What is removed. Removing takes nodes away and adds none; afterwards nothing is found under the path
that was to be removed, and a file that is removed takes nothing with it that lies elsewhere.
-/

namespace RemoteModel

namespace Tree

theorem node?_erase {t : Tree} {root place : Place} (hplace : place ≠ []) :
    (t.erase root).node? place = if root <+: place then none else t.node? place := by
  rw [erase, node?_restrict _ _ _ hplace]
  by_cases h : isUnder root place = true
  · simp [h, isUnder_iff.mp h]
  · simp [h, mt isUnder_iff.mpr h]

theorem node?_eraseBelow {t : Tree} {root place : Place} (hplace : place ≠ []) :
    (t.eraseBelow root).node? place =
      if place ≠ root ∧ root <+: place then none else t.node? place := by
  rw [eraseBelow, node?_restrict _ _ _ hplace]
  by_cases hroot : place = root
  · simp [hroot]
  · by_cases h : isUnder root place = true
    · simp [hroot, h, isUnder_iff.mp h]
    · simp [hroot, h, mt isUnder_iff.mpr h]

theorem extends_erase (t : Tree) (root : Place) : t.Extends (t.erase root) := by
  intro place node h
  by_cases hplace : place = []
  · subst hplace
    exact h
  · rw [node?_erase hplace] at h
    split at h
    · exact absurd h (by simp)
    · exact h

theorem extends_eraseBelow (t : Tree) (root : Place) : t.Extends (t.eraseBelow root) := by
  intro place node h
  by_cases hplace : place = []
  · subst hplace
    exact h
  · rw [node?_eraseBelow hplace] at h
    split at h
    · exact absurd h (by simp)
    · exact h

theorem locate_false_of_extends {t t' : Tree} {p : Path} {place : Place} (h : t.Extends t')
    (hplace : t'.locate false p = .ok place) : t.locate false p = .ok place := by
  obtain ⟨hfits, hroute⟩ := locate_eq_ok_iff.mp hplace
  exact locate_eq_ok_iff.mpr ⟨hfits, hroute.transfer (fun q node hq _ => h q node hq) (by simp)⟩

theorem locate_true_of_false {t : Tree} {p : Path} {place : Place}
    (hplace : t.locate false p = .ok place) (hnode : ∀ target, t.node? place ≠ some (.link target)) :
    t.locate true p = .ok place := by
  obtain ⟨hfits, hroute⟩ := locate_eq_ok_iff.mp hplace
  exact locate_eq_ok_iff.mpr ⟨hfits, hroute.toEnd_of_notLink hnode⟩

theorem not_names_of_taken {t t' : Tree} {p : Path} {last : Place} (h : t.Extends t')
    (hlast : t.locate false p = .ok last) (hnode : t'.node? last = none) : ¬t'.Names p := by
  intro hnames
  obtain ⟨place, hplace, hthere⟩ := names_iff.mp hnames
  obtain ⟨other, hother⟩ := locate_false_of_true hplace
  obtain rfl := locate_unique (locate_false_of_extends h hother) hlast
  have hend := locate_true_of_false hother (by simp [hnode])
  obtain rfl := locate_unique hplace hend
  exact hthere hnode

structure Unlinked (t : Tree) (last : Place) (t' : Tree) : Prop where
  leaf : t.node? last ≠ some .folder
  node? : ∀ q, t'.node? q = if q = last then none else t.node? q

theorem unlinked_erase {t : Tree} {last : Place} (h : t.node? last ≠ some .folder) :
    Unlinked t last (t.erase last) := by
  refine ⟨h, fun q => ?_⟩
  by_cases hq : q = []
  · subst hq
    rw [if_neg (by rintro rfl; exact h rfl)]
    rfl
  · rw [node?_erase hq]
    by_cases hlast : q = last
    · simp [hlast]
    · rw [if_neg hlast]
      split
      next hprefix =>
        obtain ⟨below, rfl⟩ := hprefix
        exact (node?_append_of_not_folder h (by simpa using hlast)).symm
      next => rfl

namespace Unlinked

variable {t t' : Tree} {last : Place}

theorem node?_other (h : Unlinked t last t') {q : Place} (hq : q ≠ last) :
    t'.node? q = t.node? q := by
  rw [h.node?, if_neg hq]

theorem route (h : Unlinked t last t') {n : Nat} {here place : Place} {names : List Text}
    (hhere : t.node? here = some .folder) (hroute : Route t true n here names place)
    (hlink : ∀ target, t.node? last = some (.link target) → ∀ k other,
      Route t true k (linkStart last.dropLast target) target.parts other →
      other ≠ place ∧ t.node? other ≠ some .folder) : Route t' true n here names place := by
  induction hroute with
  | done => exact .done
  | back _ ih => exact .back (ih (node?_dropLast (by simp [hhere])) hlink)
  | @stop n here name hname hend =>
      refine .stop hname fun htrue target => ?_
      rw [h.node?]
      split
      · simp
      · exact hend htrue target
  | @into n here name rest place hname hnode _ ih =>
      refine .into hname ?_ (ih hnode hlink)
      rw [h.node?_other]
      · exact hnode
      · rintro rfl
        exact h.leaf hnode
  | @follow n here name rest place target hname hnode hrest hroute ih =>
      have hstart := Route.linkStart_folder hhere target
      refine .follow hname ?_ hrest (ih hstart hlink)
      rw [h.node?_other]
      · exact hnode
      · rintro rfl
        rw [List.dropLast_concat] at hlink
        by_cases hnil : rest = []
        · subst hnil
          rw [List.append_nil] at hroute
          exact (hlink target hnode n place hroute).1 rfl
        · obtain ⟨folder, hcut, hfolder⟩ := hroute.cut hstart rfl hnil
          exact (hlink target hnode _ folder hcut).2 hfolder

theorem locate (h : Unlinked t last t') {p q : Path} {place other : Place}
    (hlast : t.locate false p = .ok last) (hplace : t.locate true p = .ok place)
    (hfile : t.node? place ≠ some .folder) (hother : t.locate true q = .ok other)
    (hne : other ≠ place) :
    t'.locate true q = .ok other ∧ t'.node? other = t.node? other := by
  obtain ⟨_, hroute⟩ := locate_eq_ok_iff.mp hplace
  obtain ⟨_, hroute'⟩ := locate_eq_ok_iff.mp hlast
  obtain ⟨hfits, hway⟩ := locate_eq_ok_iff.mp hother
  constructor
  · refine locate_eq_ok_iff.mpr ⟨hfits, h.route rfl hway ?_⟩
    intro target hlink k end' hend
    obtain ⟨_, hthrough⟩ := hroute.through_link rfl hroute' hlink
    obtain rfl := hend.unique hthrough
    exact ⟨hne.symm, hfile⟩
  · refine h.node?_other ?_
    rintro rfl
    have hend := locate_true_of_false hlast (hway.notLink rfl)
    exact hne (locate_unique hend hplace)

end Unlinked

end Tree

namespace Files

open RemoteModel.Tree

theorem extends_removeTree (p : Path) (t : Tree) : t.Extends (removeTree p t).2 := by
  unfold removeTree
  split
  next => exact .refl t
  next place _ =>
    split
    next =>
      dsimp only
      split
      next => exact (extends_eraseBelow t place).trans (extends_erase _ _)
      next => exact extends_eraseBelow t place
    next => exact .refl t
    next => exact .refl t

theorem unlinked_of_remove {t t' : Tree} {p : Path} (h : t.remove p = .ok t') :
    ∃ last, t.locate false p = .ok last ∧ t.node? last ≠ none ∧ Unlinked t last t' := by
  unfold Tree.remove at h
  cases hlast : t.locate false p with
  | error => simp [hlast, bind, Except.bind] at h
  | ok last =>
      simp only [hlast, bind, Except.bind] at h
      split at h
      next => simp [throw, throwThe, MonadExceptOf.throw] at h
      next node hnode hleaf =>
        cases h
        exact ⟨last, rfl, by simp [hleaf], unlinked_erase (by simpa [hleaf] using hnode)⟩
      next => simp [throw, throwThe, MonadExceptOf.throw] at h

theorem remove_of_file {t t' : Tree} {p : Path} (h : t.remove p = .ok t') : t.Extends t' := by
  obtain ⟨last, _, _, hunlinked⟩ := unlinked_of_remove h
  intro place node hnode
  rw [hunlinked.node?] at hnode
  split at hnode
  · exact absurd hnode (by simp)
  · exact hnode

theorem extends_remove (p : Path) (t : Tree) : t.Extends (remove p t).2 := by
  unfold remove
  split
  next => exact .refl t
  next =>
    split
    next => exact .refl t
    next => exact extends_removeTree p t
    next =>
      split
      next => exact .refl t
      next => exact .refl t
      next =>
        split
        next hremove => exact remove_of_file hremove
        next => exact .refl t

theorem isFolder_eq_true_iff {t : Tree} {p : Path} :
    t.isFolder p = .ok true ↔ t.hasFolder p = true := by
  unfold Tree.isFolder hasFolder
  split <;> simp_all

theorem leaf_of_not_hasFolder {t : Tree} {p : Path} {last : Place}
    (hlast : t.locate false p = .ok last) (hfolder : t.hasFolder p = false) :
    t.node? last ≠ some .folder := by
  intro hnode
  have hthere := hasFolder_iff.mpr ⟨last, locate_true_of_false hlast (by simp [hnode]), hnode⟩
  rw [hthere] at hfolder
  exact absurd hfolder (by simp)

theorem remove_ok {t : Tree} {p : Path} (hnames : t.Names p) (hfolder : t.hasFolder p = false) :
    ∃ t', t.remove p = .ok t' := by
  obtain ⟨place, hplace, hthere⟩ := names_iff.mp hnames
  obtain ⟨last, hlast⟩ := locate_false_of_true hplace
  unfold Tree.remove
  simp only [hlast, bind, Except.bind]
  split
  next hnode => exact absurd hnode (leaf_of_not_hasFolder hlast hfolder)
  next => exact ⟨_, rfl⟩
  next hnode =>
    obtain rfl := locate_unique hplace (locate_true_of_false hlast (by simp [hnode]))
    exact absurd hnode hthere

theorem remove_file {t : Tree} {p : Path} (hpath : checkPath p = .ok ()) (hnames : t.Names p)
    (hfolder : t.hasFolder p = false) :
    ∃ last, t.locate false p = .ok last ∧ Unlinked t last (remove p t).2 := by
  obtain ⟨t', ht'⟩ := remove_ok hnames hfolder
  obtain ⟨node, hnode⟩ := hnames
  have hno : t.isFolder p = .ok false := by
    cases node with
    | folder => simp [hasFolder, hnode] at hfolder
    | file => simp [Tree.isFolder, hnode]
    | link => simp [Tree.isFolder, hnode]
  have hyes : t.exists? p = .ok true := by simp [exists?, hnode]
  obtain ⟨last, hlast, _, hunlinked⟩ := unlinked_of_remove ht'
  refine ⟨last, hlast, ?_⟩
  simp only [remove, hpath, hno, hyes, ht']
  exact hunlinked

theorem not_names_remove {t : Tree} {p : Path} (hpath : checkPath p = .ok ())
    (hfolder : t.hasFolder p = false) : ¬(remove p t).2.Names p := by
  by_cases hnames : t.Names p
  · obtain ⟨last, hlast, hunlinked⟩ := remove_file hpath hnames hfolder
    refine not_names_of_taken (extends_remove p t) hlast ?_
    rw [hunlinked.node?, if_pos rfl]
  · intro hthere
    obtain ⟨node, hnode⟩ := hthere
    exact hnames ⟨node, (extends_remove p t).find hnode⟩

theorem not_names_remove_folder {t : Tree} {p : Path} {place : Place}
    (hpath : checkPath p = .ok ()) (hplace : t.locate false p = .ok place)
    (hfolder : t.node? place = some .folder) (hroot : place ≠ []) : ¬(remove p t).2.Names p := by
  have hend := locate_true_of_false hplace (by simp [hfolder])
  have hyes : t.isFolder p = .ok true :=
    isFolder_eq_true_iff.mpr (hasFolder_iff.mpr ⟨place, hend, hfolder⟩)
  simp only [remove, hpath, hyes, removeTree, hplace, hfolder]
  split
  next other hother =>
    obtain rfl := locate_unique hplace (locate_false_of_extends (extends_eraseBelow _ _) hother)
    refine not_names_of_taken (extends_erase _ _) hother ?_
    rw [node?_erase hroot, if_pos (List.prefix_refl _)]
  next fault hfault =>
    intro hnames
    obtain ⟨other, hother, _⟩ := names_iff.mp hnames
    obtain ⟨last, hlast⟩ := locate_false_of_true hother
    rw [hfault] at hlast
    exact absurd hlast (by simp)

theorem not_hasFolder_remove {t : Tree} {p : Path} {place : Place} (hpath : checkPath p = .ok ())
    (hplace : t.locate false p = .ok place) (hfolder : t.node? place = some .folder)
    (hroot : place ≠ []) : (remove p t).2.hasFolder p = false :=
  not_hasFolder_of_not_names (not_names_remove_folder hpath hplace hfolder hroot)

end Files

end RemoteModel
