import RemoteModel.Proofs.Files.Folders
import RemoteModel.Proofs.Files.Reached
import RemoteModel.Proofs.Files.Removal

/-!
What work on files changes. Folders that are made take nothing away, and what is written or removed under
a path lies where the path leads: work on paths that lead down from a folder leaves all else alone.
-/

namespace RemoteModel

namespace Tree

/-- What lies at a place stays; where nothing lies a folder may come new. -/
def Keeps (t t' : Tree) (place : Place) : Prop :=
  t'.node? place = t.node? place ∨ t.node? place = none ∧ t'.node? place = some .folder

namespace Keeps

variable {t t' t'' : Tree} {place : Place}

theorem refl (t : Tree) (place : Place) : Keeps t t place := .inl rfl

theorem trans (h : Keeps t t' place) (h' : Keeps t' t'' place) : Keeps t t'' place := by
  rcases h' with hsame | ⟨hfree, hfolder⟩
  · rcases h with h | ⟨hfree, hfolder⟩
    · exact .inl (hsame.trans h)
    · exact .inr ⟨hfree, hsame.trans hfolder⟩
  · rcases h with h | ⟨_, hfolder'⟩
    · exact .inr ⟨h.symm.trans hfree, hfolder⟩
    · simp [hfree] at hfolder'

theorem sameLinks (h : ∀ place, Keeps t t' place) : SameLinks t t' := by
  intro place target
  rcases h place with hsame | ⟨hfree, hfolder⟩
  · rw [hsame]
  · simp [hfree, hfolder]

end Keeps

end Tree

namespace Files

open RemoteModel.Tree

theorem makeFolder_keeps {t t' : Tree} {p : Path} (h : t.makeFolder p = .ok t') (place : Place) :
    Keeps t t' place := by
  obtain ⟨free, _, hfree, hnode⟩ := make_eq_ok h
  unfold Keeps
  rw [hnode]
  by_cases heq : place = free
  · subst heq
    exact .inr ⟨hfree, if_pos rfl⟩
  · exact .inl (if_neg heq)

theorem makeFoldersTo_keeps (depth : Nat) (p : Path) (t : Tree) (place : Place) :
    Keeps t (makeFoldersTo depth p t).2 place := by
  induction depth generalizing p with
  | zero =>
      rw [makeFoldersTo]
      split
      next hmake => exact makeFolder_keeps hmake place
      next => exact .refl t place
      next => split <;> exact .refl t place
  | succ depth ih =>
      rw [makeFoldersTo]
      split
      next hmake => exact makeFolder_keeps hmake place
      next =>
        have habove := ih p.parent
        split
        next hup =>
          rw [hup] at habove
          exact habove
        next hup =>
          rw [hup] at habove
          split
          next hmake => exact habove.trans (makeFolder_keeps hmake place)
          next => split <;> exact habove
      next => split <;> exact .refl t place

theorem makeFolders_keeps (p : Path) (t : Tree) (place : Place) :
    Keeps t (makeFolders p t).2 place := by
  unfold makeFolders
  split
  next => exact .refl t place
  next => exact makeFoldersTo_keeps _ p t place

theorem erase_elsewhere {t : Tree} {root place : Place} (h : ¬root <+: place) :
    (t.erase root).node? place = t.node? place := by
  by_cases hplace : place = []
  · subst hplace
    rfl
  · rw [node?_erase hplace, if_neg h]

theorem eraseBelow_elsewhere {t : Tree} {root place : Place} (h : ¬root <+: place) :
    (t.eraseBelow root).node? place = t.node? place := by
  by_cases hplace : place = []
  · subst hplace
    rfl
  · rw [node?_eraseBelow hplace, if_neg fun hunder => h hunder.2]

theorem removeTree_elsewhere {t : Tree} {p : Path} {place : Place}
    (h : ∀ root, t.locate false p = .ok root → ¬root <+: place) :
    (removeTree p t).2.node? place = t.node? place := by
  unfold removeTree
  split
  next => rfl
  next root hroot =>
    split
    next =>
      dsimp only
      split
      next other hother =>
        -- The name of the folder still leads to it once it is empty, or it leads nowhere.
        obtain rfl := locate_unique hroot (locate_false_of_extends (extends_eraseBelow t root) hother)
        rw [erase_elsewhere (h root hroot), eraseBelow_elsewhere (h root hroot)]
      next => exact eraseBelow_elsewhere (h root hroot)
    next => rfl
    next => rfl

theorem remove_elsewhere {t : Tree} {p : Path} {place : Place}
    (h : ∀ root, t.locate false p = .ok root → ¬root <+: place) :
    (remove p t).2.node? place = t.node? place := by
  unfold remove
  split
  next => rfl
  next =>
    split
    next => rfl
    next => exact removeTree_elsewhere h
    next =>
      split
      next => rfl
      next => rfl
      next =>
        split
        next hremove =>
          obtain ⟨last, hlast, _, hunlinked⟩ := unlinked_of_remove hremove
          refine hunlinked.node?_other ?_
          rintro rfl
          exact h place hlast (List.prefix_refl place)
        next => rfl

end Files

namespace Path

def below (p : Path) (names : List Text) : Path := ⟨p.anchor, p.parts ++ names⟩

theorem below_below (p : Path) (names more : List Text) :
    (p.below names).below more = p.below (names ++ more) := by
  simp [below]

end Path

namespace Tree

/-- The places under some names below where a path leads. -/
def Zone (t : Tree) (base : Path) (tops : List (List Text)) (place : Place) : Prop :=
  ∃ folder, t.Reaches base folder ∧ ∃ top ∈ tops, folder.along top <+: place

/-- Names that lead down under some others. -/
structure Within (tops : List (List Text)) (names : List Text) : Prop where
  named : names ≠ []
  down : twoDots ∉ names
  under : ∃ top ∈ tops, top <+: names

/-- A tree in which files have been made or written under some names. -/
structure Filled (base : Path) (tops : List (List Text)) (t t' : Tree) : Prop where
  links : SameLinks t t'
  keeps : ∀ place, ¬t.Zone base tops place → Keeps t t' place

/-- A tree in which something has been removed, too. -/
structure Cleared (base : Path) (tops : List (List Text)) (t t' : Tree) : Prop where
  links : ∃ full, SameLinks t full ∧ full.Extends t'
  keeps : ∀ place, ¬t.Zone base tops place → Keeps t t' place

variable {t t' : Tree} {base : Path} {tops : List (List Text)} {names : List Text}

theorem Zone.below {place other : Place} (h : t.Zone base tops place) (hunder' : place <+: other) :
    t.Zone base tops other := by
  obtain ⟨folder, hfolder, top, htop, hunder⟩ := h
  exact ⟨folder, hfolder, top, htop, hunder.trans hunder'⟩

theorem within_snoc {top : List Text} {name : Text} (hdown : twoDots ∉ names)
    (hname : name ≠ twoDots) (htop : top ∈ tops) (hunder : top <+: names) :
    Within tops (names ++ [name]) := by
  refine ⟨by simp, ?_, top, htop, hunder.trans (List.prefix_append _ _)⟩
  rw [List.mem_append, List.mem_singleton, not_or]
  exact ⟨hdown, hname.symm⟩

theorem Within.zone (h : Within tops names) (hfree : t.Linkless base) (hlinks : SameLinks t t')
    {toEnd : Bool} {place : Place} (hplace : t'.locate toEnd (base.below names) = .ok place) :
    t.Zone base tops place := by
  obtain ⟨folder, hfolder, rfl⟩ :=
    locate_below hfree hlinks h.down (fun hnil => absurd hnil h.named) hplace
  obtain ⟨top, htop, hunder⟩ := h.under
  exact ⟨folder, .of_locate hlinks hfolder, top, htop, Place.along_prefix folder hunder⟩

namespace Filled

theorem refl (base : Path) (tops : List (List Text)) (t : Tree) : Filled base tops t t :=
  ⟨.refl t, fun place _ => .refl t place⟩

theorem cleared (h : Filled base tops t t') : Cleared base tops t t' :=
  ⟨⟨t', h.links, .refl t'⟩, h.keeps⟩

theorem makeFolders (h : Filled base tops t t') (p : Path) :
    Filled base tops t (Files.makeFolders p t').2 := by
  have hmade := Files.makeFolders_keeps p t'
  exact ⟨h.links.trans (Keeps.sameLinks hmade), fun place hplace =>
    (h.keeps place hplace).trans (hmade place)⟩

theorem write (h : Filled base tops t t') (hfree : t.Linkless base) (hwithin : Within tops names)
    {t'' : Tree} {content : Bytes} (hwrite : Files.write t' (base.below names) content = .ok t'') :
    Filled base tops t t'' := by
  obtain ⟨root, hroot, hstored⟩ := write_eq_ok (Files.write_eq_ok_iff.mp hwrite).2
  refine ⟨h.links.trans hstored.sameWays.sameLinks, fun place hplace => ?_⟩
  refine (h.keeps place hplace).trans (.inl (hstored.node?_other ?_))
  rintro rfl
  exact hplace (hwithin.zone hfree h.links hroot)

end Filled

theorem Cleared.remove (h : Cleared base tops t t') (hfree : t.Linkless base)
    (hwithin : Within tops names) :
    Cleared base tops t (Files.remove (base.below names) t').2 := by
  obtain ⟨⟨full, hlinks, hfull⟩, hkeeps⟩ := h
  refine ⟨⟨full, hlinks, hfull.trans (Files.extends_remove _ t')⟩, fun place hplace => ?_⟩
  refine (hkeeps place hplace).trans (.inl (Files.remove_elsewhere fun root hroot hunder => ?_))
  have hlocate := locate_false_of_extends hfull hroot
  exact hplace ((hwithin.zone hfree hlinks hlocate).below hunder)

theorem Cleared.locate_false (h : Cleared base tops t t') (hfree : t.Linkless base)
    (hwithin : Within tops names) {place : Place}
    (hplace : t'.locate true (base.below names) = .ok place) (hthere : t'.node? place ≠ none) :
    t'.locate false (base.below names) = .ok place ∧ place ≠ [] := by
  obtain ⟨full, hlinks, hfull⟩ := h.links
  have hnil (h : names = []) : false = true := absurd h hwithin.named
  obtain ⟨other, hother⟩ := locate_false_of_true hplace
  obtain ⟨folder, hfolder, rfl⟩ :=
    locate_below hfree hlinks hwithin.down (fun _ => rfl) (hfull.locate hplace hthere)
  obtain ⟨folder', hfolder', rfl⟩ :=
    locate_below hfree hlinks hwithin.down hnil (locate_false_of_extends hfull hother)
  obtain rfl := locate_unique hfolder hfolder'
  exact ⟨hother, Place.along_ne_nil folder hwithin.named⟩

theorem Cleared.not_names (h : Cleared base tops t t') (hfree : t.Linkless base)
    (hwithin : Within tops names) (hpath : Files.checkPath (base.below names) = .ok ()) :
    ¬(Files.remove (base.below names) t').2.Names (base.below names) := by
  cases hthere : t'.hasFolder (base.below names) with
  | false => exact Files.not_names_remove hpath hthere
  | true =>
      obtain ⟨place, hplace, hfolder⟩ := hasFolder_iff.mp hthere
      obtain ⟨hlast, hroot⟩ := h.locate_false hfree hwithin hplace (by simp [hfolder])
      exact Files.not_names_remove_folder hpath hlast hfolder hroot

end Tree

end RemoteModel
