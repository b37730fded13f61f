import RemoteModel.Proofs.Files.Folders
import RemoteModel.Proofs.Files.Stored

/-!
Files that are staged: the folders above a file are made, and then it may be written, once or several
times. What was no folder below those folders is none afterwards.
-/

namespace RemoteModel

open RemoteModel.Tree Files

/-- A tree in which a file was to be written, and what is in it if it was. -/
inductive Staged (t : Tree) (target : Path) : Option Bytes → Tree → Prop
  | bare {done : Bool} {t' : Tree} : Laid t target.parent done t' → Staged t target none t'
  | written {done : Bool} {t₁ t' : Tree} {place : Place} {content : Bytes} :
      Laid t target.parent done t₁ → checkPath target = .ok () →
      t₁.locate true target = .ok place → Stored t₁ place content t' →
      Staged t target (some content) t'

namespace Staged

variable {t t' t'' : Tree} {target : Path} {found : Option Bytes} {content : Bytes}

theorem untouched (t : Tree) (target : Path) : Staged t target none t :=
  .bare (show Laid t target.parent false t from .unchanged (by simp))

theorem made (hground : t.Grounds target.parent) :
    Staged t target none (makeFolders target.parent t).2 :=
  .bare (makeFolders_laid hground)

theorem write (h : Staged t target found t') (hwrite : Files.write t' target content = .ok t'') :
    Staged t target (some content) t'' := by
  obtain ⟨hpath, htree⟩ := write_eq_ok_iff.mp hwrite
  obtain ⟨place, hplace, hstored⟩ := write_eq_ok htree
  cases h with
  | bare hlaid => exact .written hlaid hpath hplace hstored
  | written hlaid _ hbefore hfirst =>
      rw [hfirst.sameWays.locate_iff] at hplace
      obtain rfl := locate_unique hbefore hplace
      refine .written hlaid hpath hbefore ⟨hfirst.noWay, fun q => ?_⟩
      rw [hstored.node?, hfirst.node?]
      split <;> rfl

theorem grounds (h : Staged t target found t') {p : Path} (hground : t.Grounds p) :
    t'.Grounds p := by
  cases h with
  | bare hlaid => exact hground.of_extends hlaid.keeps
  | written hlaid _ _ hstored =>
      intro front back hparts
      rw [hstored.sameWays.hasFolder]
      exact hground.of_extends hlaid.keeps front back hparts

theorem not_hasFolder (h : Staged t target found t') {below : List Text}
    (hground : t.Grounds ⟨target.anchor, target.parts.dropLast ++ below⟩) (hbelow : below ≠ [])
    (hnot : t.hasFolder ⟨target.anchor, target.parts.dropLast ++ below⟩ = false) :
    t'.hasFolder ⟨target.anchor, target.parts.dropLast ++ below⟩ = false := by
  have hlaid {done : Bool} {t₁ : Tree} (h : Laid t target.parent done t₁) :
      t₁.hasFolder ⟨target.anchor, target.parts.dropLast ++ below⟩ = false := by
    rcases Laid.unchanged_or_bare h hground hbelow with rfl | hbare
    · exact hnot
    · exact not_hasFolder_of_not_names hbare
  cases h with
  | bare h => exact hlaid h
  | written h _ _ hstored =>
      rw [hstored.sameWays.hasFolder]
      exact hlaid h

theorem not_names (h : Staged t target none t') {name : Text}
    (hground : t.Grounds ⟨target.anchor, target.parts.dropLast ++ [name]⟩)
    (hnot : ¬t.Names ⟨target.anchor, target.parts.dropLast ++ [name]⟩) :
    ¬t'.Names ⟨target.anchor, target.parts.dropLast ++ [name]⟩ := by
  cases h with
  | bare h =>
      rcases Laid.unchanged_or_bare h hground (by simp) with rfl | hbare
      · exact hnot
      · exact hbare

theorem find (h : Staged t target (some content) t') : t'.find target = .ok (.file content) := by
  cases h with
  | written _ _ hplace hstored => exact hstored.find hplace

theorem checkPath (h : Staged t target (some content) t') :
    Files.checkPath target = .ok () := by
  cases h with
  | written _ hpath _ _ => exact hpath

end Staged

end RemoteModel
