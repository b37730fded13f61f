import RemoteModel.Proofs.Files.Found
import RemoteModel.Proofs.Results

/-!
Files that are written. A file takes the place of nothing or of another file, so folders and links stay
what they were, every path leads where it led before, and the new content is read back.
-/

namespace RemoteModel

namespace Tree

def SameWays (t t' : Tree) : Prop :=
  ∀ place node, node.isWay = true → (t.node? place = some node ↔ t'.node? place = some node)

namespace SameWays

variable {t t' t'' : Tree} {toEnd : Bool} {p : Path} {place : Place}

theorem refl (t : Tree) : SameWays t t := fun _ _ _ => Iff.rfl

theorem symm (h : SameWays t t') : SameWays t' t := fun place node hway => (h place node hway).symm

theorem trans (h : SameWays t t') (h' : SameWays t' t'') : SameWays t t'' :=
  fun place node hway => (h place node hway).trans (h' place node hway)

theorem locate_of_locate (h : SameWays t t') (hplace : t.locate toEnd p = .ok place) :
    t'.locate toEnd p = .ok place := by
  obtain ⟨hfits, hroute⟩ := locate_eq_ok_iff.mp hplace
  refine locate_eq_ok_iff.mpr ⟨hfits, hroute.transfer ?_ ?_⟩
  · exact fun q node hq hway => (h q node hway).mp hq
  · rintro rfl target hlink
    exact hroute.notLink rfl target ((h place _ rfl).mpr hlink)

theorem locate_iff (h : SameWays t t') :
    t'.locate toEnd p = .ok place ↔ t.locate toEnd p = .ok place :=
  ⟨h.symm.locate_of_locate, h.locate_of_locate⟩

theorem hasFolder (h : SameWays t t') : t'.hasFolder p = t.hasFolder p := by
  rw [Bool.eq_iff_iff, hasFolder_iff, hasFolder_iff]
  simp only [h.locate_iff, h _ .folder rfl]

end SameWays

/-- A tree with a file at a place where there was none or another one. -/
structure Stored (t : Tree) (place : Place) (content : Bytes) (t' : Tree) : Prop where
  noWay : ∀ node, t.node? place = some node → node.isWay = false
  node? : ∀ q, t'.node? q = if q = place then some (.file content) else t.node? q

namespace Stored

variable {t t' : Tree} {place : Place} {content : Bytes}

theorem sameWays (h : Stored t place content t') : SameWays t t' := by
  intro q node hway
  rw [h.node?]
  split
  next heq =>
    subst heq
    constructor
    · intro hold
      rw [h.noWay node hold] at hway
      exact absurd hway (by simp)
    · intro hnew
      obtain rfl := Option.some.inj hnew
      exact absurd hway (by simp [Node.isWay])
  next => rfl

theorem node?_self (h : Stored t place content t') : t'.node? place = some (.file content) := by
  rw [h.node?, if_pos rfl]

theorem node?_other (h : Stored t place content t') {q : Place} (hq : q ≠ place) :
    t'.node? q = t.node? q := by
  rw [h.node?, if_neg hq]

theorem find (h : Stored t place content t') {p : Path} (hplace : t.locate true p = .ok place) :
    t'.find p = .ok (.file content) :=
  find_eq_ok_iff.mpr ⟨place, h.sameWays.locate_of_locate hplace, h.node?_self⟩

end Stored

theorem write_eq_ok {t t' : Tree} {p : Path} {content : Bytes} (h : t.write p content = .ok t') :
    ∃ place, t.locate true p = .ok place ∧ Stored t place content t' := by
  unfold write at h
  split at h
  next => simp at h
  next place hplace =>
    split at h
    next => simp at h
    next hfree =>
      cases h
      refine ⟨place, hplace, ?_, node?_put t _ _⟩
      intro node hnode
      obtain ⟨_, hroute⟩ := locate_eq_ok_iff.mp hplace
      cases node with
      | file => rfl
      | folder => exact absurd hnode hfree
      | link target => exact absurd hnode (hroute.notLink rfl target)

theorem read_eq_ok_iff {t : Tree} {p : Path} {content : Bytes} :
    t.read p = .ok content ↔ t.find p = .ok (.file content) := by
  unfold read
  cases t.find p with
  | error => simp [bind, Except.bind]
  | ok node => cases node <;> simp [bind, Except.bind, pure, Except.pure, throw, throwThe,
      MonadExceptOf.throw]

theorem not_hasFolder_of_find {t : Tree} {p : Path} {node : Node} (h : t.find p = .ok node)
    (hnode : node ≠ .folder) : t.hasFolder p = false := by
  unfold hasFolder
  rw [h]
  cases node <;> simp_all

end Tree

namespace Files

open RemoteModel.Tree

theorem named_eq_ok_iff {α : Type} {p : Path} {r : Except FileFault α} {v : α} :
    named p r = .ok v ↔ r = .ok v := by
  cases r <;> simp [named]

theorem read_eq_ok_iff {t : Tree} {p : Path} {content : Bytes} :
    read t p = .ok content ↔ checkPath p = .ok () ∧ t.find p = .ok (.file content) := by
  unfold read
  cases checkPath p with
  | error => simp [bind, Except.bind]
  | ok => simp [bind, Except.bind, named_eq_ok_iff, Tree.read_eq_ok_iff]

theorem write_eq_ok_iff {t t' : Tree} {p : Path} {content : Bytes} :
    write t p content = .ok t' ↔ checkPath p = .ok () ∧ t.write p content = .ok t' := by
  unfold write
  cases checkPath p with
  | error => simp [bind, Except.bind]
  | ok => simp [bind, Except.bind, named_eq_ok_iff]

theorem copy_eq_ok {t t' : Tree} {source target : Path} (h : copy source target t = .ok t') :
    ∃ content, t.find source = .ok (.file content) ∧ write t target content = .ok t' := by
  unfold copy at h
  cases hsource : checkPath source with
  | error => simp [hsource, bind, Except.bind] at h
  | ok =>
      cases htarget : checkPath target with
      | error => simp [hsource, htarget, bind, Except.bind] at h
      | ok =>
          simp only [hsource, htarget, bind, Except.bind] at h
          split at h
          next => simp [throw, throwThe, MonadExceptOf.throw] at h
          next =>
            split at h
            next => simp at h
            next content hread =>
              refine ⟨content, Tree.read_eq_ok_iff.mp (named_eq_ok_iff.mp hread), ?_⟩
              exact write_eq_ok_iff.mpr ⟨htarget, named_eq_ok_iff.mp h⟩

/-- Paths that cannot be named hold a null or what no name can be written with. -/
theorem error_of_checkPath {p : Path} {f : Failure} (h : checkPath p = .error f) :
    f = .nullInPath ∨ ∃ rune first last, f = .notWritable rune first last := by
  unfold checkPath at h
  split at h
  next =>
    cases h
    exact .inr ⟨_, _, _, rfl⟩
  next =>
    split at h
    next =>
      cases h
      exact .inl rfl
    next => cases h

theorem error_of_named {α : Type} {p : Path} {r : Except FileFault α} {f : Failure}
    (h : named p r = .error f) : ∃ fault, f = .file fault p.text := by
  cases r with
  | ok => cases h
  | error fault =>
      cases h
      exact ⟨fault, rfl⟩

theorem write_eq_error {t : Tree} {p : Path} {content : Bytes} {f : Failure}
    (hpath : checkPath p = .ok ()) (h : write t p content = .error f) :
    f.isA (.basic .osError) = true := by
  unfold write at h
  rw [hpath] at h
  obtain ⟨fault, rfl⟩ := error_of_named h
  cases fault <;> rfl

theorem write_of_read {t : Tree} {p : Path} {content : Bytes} (h : read t p = .ok content)
    (other : Bytes) : ∃ t', write t p other = .ok t' := by
  obtain ⟨hpath, hfound⟩ := read_eq_ok_iff.mp h
  obtain ⟨place, hplace, hfile⟩ := find_eq_ok_iff.mp hfound
  have hwrite : ∃ t', t.write p other = .ok t' := by
    unfold Tree.write
    split
    next fault hfault => cases hplace.symm.trans hfault
    next found hlocated =>
      obtain rfl := Except.ok.inj (hplace.symm.trans hlocated)
      rw [dif_neg (by rw [hfile]; nofun)]
      exact ⟨_, rfl⟩
  obtain ⟨t', ht'⟩ := hwrite
  exact ⟨t', write_eq_ok_iff.mpr ⟨hpath, ht'⟩⟩

theorem write_of_checkPath {t : Tree} {p : Path} {content : Bytes} {f : Failure}
    (h : checkPath p = .error f) : write t p content = .error f :=
  error_of_bind.mpr (.inl h)

/-- Errors of files are ordinary ones. -/
theorem exception_of_read {t : Tree} {p : Path} {f : Failure} (h : read t p = .error f) :
    f.isA (.basic .exception) = true := by
  unfold read at h
  rcases error_of_bind.mp h with hpath | ⟨_, _, hnamed⟩
  · obtain rfl | ⟨_, _, _, rfl⟩ := error_of_checkPath hpath <;> rfl
  · obtain ⟨fault, rfl⟩ := error_of_named hnamed
    cases fault <;> rfl

theorem exception_of_readText {t : Tree} {p : Path} {f : Failure} (h : readText t p = .error f) :
    f.isA (.basic .exception) = true := by
  unfold readText at h
  rcases error_of_bind.mp h with hbytes | ⟨bytes, _, htext⟩
  · exact exception_of_read hbytes
  · split at htext
    next => cases htext
    next =>
      cases htext
      rfl

end Files

end RemoteModel
