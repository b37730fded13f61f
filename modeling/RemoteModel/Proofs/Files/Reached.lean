import RemoteModel.Proofs.Files.Stored

/-!
Where paths lead. Only the links of a tree decide to which place a path leads, whether or not there are
folders for it to go through; below a place with no link below it a path leads down.
-/

namespace RemoteModel

namespace Tree

def SameLinks (t t' : Tree) : Prop :=
  ∀ place target, t'.node? place = some (.link target) ↔ t.node? place = some (.link target)

namespace SameLinks

variable {t t' t'' : Tree}

theorem refl (t : Tree) : SameLinks t t := fun _ _ => Iff.rfl

theorem symm (h : SameLinks t t') : SameLinks t' t := fun place target => (h place target).symm

theorem trans (h : SameLinks t t') (h' : SameLinks t' t'') : SameLinks t t'' :=
  fun place target => (h' place target).trans (h place target)

theorem place_eq (h : SameLinks t t') {n m : Nat} {here place other : Place} {names : List Text}
    (hroute : Route t true n here names place) (hroute' : Route t' true m here names other) :
    place = other := by
  induction hroute generalizing m with
  | done =>
      cases hroute' with
      | done => rfl
  | back _ ih =>
      cases hroute' with
      | back hroute' => exact ih hroute'
      | stop hname => exact absurd rfl hname.down
      | into hname => exact absurd rfl hname.down
      | follow hname => exact absurd rfl hname.down
  | stop hname hend =>
      cases hroute' with
      | back => exact absurd rfl hname.down
      | stop => rfl
      | into _ _ hrest =>
          cases hrest with
          | done => rfl
      | follow _ hnode => exact absurd ((h _ _).mp hnode) (hend rfl _)
  | into hname hnode hrest ih =>
      cases hroute' with
      | back => exact absurd rfl hname.down
      | stop =>
          cases hrest with
          | done => rfl
      | into _ _ hrest' => exact ih hrest'
      | follow _ hnode' => simp [(h _ _).mp hnode'] at hnode
  | follow hname hnode _ _ ih =>
      have hlink := (h _ _).mpr hnode
      cases hroute' with
      | back => exact absurd rfl hname.down
      | stop _ hend => exact absurd hlink (hend rfl _)
      | into _ hnode' => simp [hlink] at hnode'
      | follow _ hnode' _ hrest' =>
          rw [hlink] at hnode'
          cases hnode'
          exact ih hrest'

end SameLinks

theorem SameWays.sameLinks {t t' : Tree} (h : SameWays t t') : SameLinks t t' :=
  fun place target => (h place (.link target) rfl).symm

/-- Where a path leads once the folders on its way are there. -/
def Reaches (t : Tree) (p : Path) (place : Place) : Prop :=
  ∃ t', SameLinks t t' ∧ t'.locate true p = .ok place

/-- No link lies where a path leads or below. -/
def Linkless (t : Tree) (p : Path) : Prop :=
  ∀ folder, t.Reaches p folder → ∀ place, folder <+: place →
    ∀ target, t.node? place ≠ some (.link target)

namespace Reaches

variable {t t' : Tree} {p : Path} {place other : Place}

theorem of_locate (h : SameLinks t t') (hplace : t'.locate true p = .ok place) : t.Reaches p place :=
  ⟨t', h, hplace⟩

theorem unique (h : t.Reaches p place) (h' : t.Reaches p other) : place = other := by
  obtain ⟨t₁, hlinks₁, hplace⟩ := h
  obtain ⟨t₂, hlinks₂, hother⟩ := h'
  exact (hlinks₁.symm.trans hlinks₂).place_eq (locate_eq_ok_iff.mp hplace).2
    (locate_eq_ok_iff.mp hother).2

end Reaches

theorem mem_of_lookup {place : Place} {node : Node} {nodes : List (Place × Node)}
    (h : Node.lookup place nodes = some node) : (place, node) ∈ nodes := by
  induction nodes with
  | nil => cases h
  | cons entry rest ih =>
      obtain ⟨p, n⟩ := entry
      rw [Node.lookup] at h
      split at h
      next heq =>
        cases h
        exact heq ▸ List.mem_cons_self
      next => exact List.mem_cons_of_mem _ (ih h)

theorem linkless_of_nodes {t : Tree} (h : (t.nodes.any fun e => e.2 matches .link _) = false)
    (p : Path) : t.Linkless p := by
  intro folder _ place _ target hlink
  by_cases hplace : place = []
  · subst hplace
    cases hlink
  · rw [node?_eq_lookup t hplace] at hlink
    have hany := List.any_eq_false.mp h _ (mem_of_lookup hlink)
    exact hany rfl

theorem locate_below {t t' : Tree} {toEnd : Bool} {anchor : Anchor} {front names : List Text}
    {place : Place} (hfree : t.Linkless ⟨anchor, front⟩) (hlinks : SameLinks t t')
    (hdots : twoDots ∉ names) (hend : names = [] → toEnd = true)
    (h : t'.locate toEnd ⟨anchor, front ++ names⟩ = .ok place) :
    ∃ folder, t'.locate true ⟨anchor, front⟩ = .ok folder ∧ place = folder.along names := by
  induction names using List.reverseRecOn generalizing toEnd place with
  | nil =>
      obtain rfl := hend rfl
      rw [List.append_nil] at h
      exact ⟨place, h, (Place.along_nil place).symm⟩
  | append_singleton names name ih =>
      rw [← List.append_assoc] at h
      obtain ⟨base, hbase, hfolder⟩ := hasFolder_iff.mp (hasFolder_of_locate_append (by simp) h)
      rw [List.mem_append, List.mem_singleton, not_or] at hdots
      obtain ⟨folder, hfront, rfl⟩ := ih hdots.1 (fun _ => rfl) hbase
      have hunlinked (target : Path) :
          t'.node? ((folder.along names).along [name]) ≠ some (.link target) := by
        rw [ne_eq, hlinks]
        refine hfree folder (.of_locate hlinks hfront) _ ?_ target
        exact (Place.prefix_along ..).trans (Place.prefix_along ..)
      have hplace := locate_append hbase hfolder (Ne.symm hdots.2) (fun _ => hunlinked) h
      exact ⟨folder, hfront, hplace.trans (Place.along_append ..).symm⟩

theorem Reaches.below {t : Tree} {anchor : Anchor} {front names : List Text} {place : Place}
    (hfree : t.Linkless ⟨anchor, front⟩) (hdots : twoDots ∉ names)
    (h : t.Reaches ⟨anchor, front ++ names⟩ place) :
    ∃ folder, t.Reaches ⟨anchor, front⟩ folder ∧ place = folder.along names := by
  obtain ⟨t', hlinks, hplace⟩ := h
  obtain ⟨folder, hfront, rfl⟩ := locate_below hfree hlinks hdots (fun _ => rfl) hplace
  exact ⟨folder, .of_locate hlinks hfront, rfl⟩

end Tree

end RemoteModel
