import Mathlib.Data.List.Forall2
import RemoteModel.Proofs.Files.Folders
import RemoteModel.Proofs.Files.Stored

/-!
Splitting. The chunks of bytes are the bytes again, all full but the last; splitting a file into a new
folder writes them there under their numbers, and the paths it yields read them in order.
-/

namespace RemoteModel

namespace Bytes

theorem chunks_cons (size : Nat) (b : UInt8) (rest : Bytes) :
    chunks size (b :: rest) =
      (b :: rest.take (size - 1)) :: chunks size (rest.drop (size - 1)) := by
  rw [chunks]

theorem flatten_chunks (size : Nat) (bytes : Bytes) : (chunks size bytes).flatten = bytes := by
  fun_induction chunks size bytes with
  | case1 => rfl
  | case2 b rest ih =>
      rw [List.flatten_cons, ih, List.cons_append, List.take_append_drop]

/-- A list of chunks that are full but for the last one. -/
inductive IsCut (size : Nat) : List Bytes → Prop
  | none : IsCut size []
  | last {chunk : Bytes} : 0 < chunk.length → chunk.length ≤ size → IsCut size [chunk]
  | more {chunk : Bytes} {chunks : List Bytes} :
      chunk.length = size → chunks ≠ [] → IsCut size chunks → IsCut size (chunk :: chunks)

theorem chunks_ne_nil {size : Nat} {bytes : Bytes} (h : bytes ≠ []) : chunks size bytes ≠ [] := by
  obtain ⟨b, rest, rfl⟩ := List.exists_cons_of_ne_nil h
  rw [chunks_cons]
  simp

theorem isCut_chunks {size : Nat} (hsize : 0 < size) (bytes : Bytes) :
    IsCut size (chunks size bytes) := by
  fun_induction chunks size bytes with
  | case1 => exact .none
  | case2 b rest ih =>
      by_cases hrest : rest.drop (size - 1) = []
      · rw [hrest, chunks]
        refine .last (by simp) ?_
        simp only [List.length_cons, List.length_take]
        omega
      · refine .more ?_ (chunks_ne_nil hrest) ih
        have hlong := mt List.drop_eq_nil_iff.mpr hrest
        simp only [List.length_cons, List.length_take]
        omega

namespace IsCut

variable {size : Nat} {chunks : List Bytes}

theorem full (h : IsCut size chunks) : ∀ chunk ∈ chunks.dropLast, chunk.length = size := by
  induction h with
  | none => simp
  | last => simp
  | more hfull hne _ ih =>
      rw [List.dropLast_cons_of_ne_nil hne]
      simpa [hfull] using ih

theorem rest (h : IsCut size chunks) :
    ∀ chunk ∈ chunks.getLast?, 0 < chunk.length ∧ chunk.length ≤ size := by
  induction h with
  | none => simp
  | last hpos hle => simp [hpos, hle]
  | @more chunk chunks _ hne _ ih =>
      rwa [List.getLast?_cons, List.getLast?_eq_some_getLast hne, Option.getD_some,
        ← List.getLast?_eq_some_getLast hne]

theorem count (h : IsCut size chunks) (hsize : 0 < size) :
    chunks.length = (chunks.flatten.length + size - 1) / size := by
  induction h with
  | none => exact (Nat.div_eq_of_lt (by simp only [List.flatten_nil, List.length_nil]; omega)).symm
  | @last chunk hpos hle =>
      simp only [List.length_singleton, List.flatten_cons, List.flatten_nil, List.append_nil]
      rw [eq_comm, Nat.div_eq_iff hsize]
      omega
  | @more chunk chunks hfull _ _ ih =>
      rw [List.length_cons, List.flatten_cons, List.length_append, hfull, ih]
      rw [show size + chunks.flatten.length + size - 1 = chunks.flatten.length + size - 1 + size by
        omega, Nat.add_div_right _ hsize]

end IsCut

end Bytes

namespace Tree

def Holds (t : Tree) (folder : Place) (p : Path) (content : Bytes) : Prop :=
  ∃ name, t.locate true p = .ok (folder ++ [name]) ∧
    t.node? (folder ++ [name]) = some (.file content)

theorem Holds.find {t : Tree} {folder : Place} {p : Path} {content : Bytes}
    (h : t.Holds folder p content) : t.find p = .ok (.file content) := by
  obtain ⟨_, hplace, hnode⟩ := h
  exact find_eq_ok_iff.mpr ⟨_, hplace, hnode⟩

end Tree

namespace Files

open RemoteModel.Tree

theorem chunkPath_eq (folder : Path) (number : Nat) :
    chunkPath folder number = ⟨folder.anchor, folder.parts ++ [Text.ofNat number]⟩ :=
  Path.child_part folder (Path.isPart_ofNat number)

theorem checkPath_chunkPath {folder : Path} (h : checkPath folder = .ok ()) (number : Nat) :
    checkPath (chunkPath folder number) = .ok () := by
  rw [checkPath_iff] at h ⊢
  rw [chunkPath_eq]
  intro name hname
  rcases List.mem_append.mp hname with hname | hname
  · exact h name hname
  · rw [List.mem_singleton.mp hname]
    exact isAskable_ofNat number

theorem place_inj {folder : Place} {m n : Nat}
    (h : folder.along [Text.ofNat m] = folder.along [Text.ofNat n]) : m = n := by
  rw [Place.along_singleton, Place.along_singleton,
    FileName.settled_of_isWellFormed (Text.isWellFormed_ofNat m),
    FileName.settled_of_isWellFormed (Text.isWellFormed_ofNat n)] at h
  exact Text.ofNat_injective (List.singleton_inj.mp (List.append_cancel_left h))

theorem write_chunk {t t' : Tree} {folder : Path} {place : Place} {number : Nat} {chunk : Bytes}
    (hplace : t.locate true folder = .ok place) (hfolder : t.node? place = some .folder)
    (hfree : ∀ target, t.node? (place.along [Text.ofNat number]) ≠ some (.link target))
    (h : write t (chunkPath folder number) chunk = .ok t') :
    t.locate true (chunkPath folder number) = .ok (place.along [Text.ofNat number]) ∧
      Stored t (place.along [Text.ofNat number]) chunk t' := by
  obtain ⟨_, hwrite⟩ := write_eq_ok_iff.mp h
  obtain ⟨at', hat, hstored⟩ := write_eq_ok hwrite
  have hpath := hat
  rw [chunkPath_eq] at hpath
  obtain rfl := locate_append hplace hfolder (Path.ofNat_ne_twoDots number) (fun _ => hfree) hpath
  exact ⟨hat, hstored⟩

structure Beside (t : Tree) (place : Place) (number : Nat) (t' : Tree) : Prop where
  sameWays : SameWays t t'
  other : ∀ q, (∀ m, number ≤ m → q ≠ place.along [Text.ofNat m]) → t'.node? q = t.node? q

theorem writeChunks_beside {folder : Path} {place : Place} (chunks : List Bytes) :
    ∀ number t, t.locate true folder = .ok place → t.node? place = some .folder →
      (∀ m, number ≤ m → ∀ target, t.node? (place.along [Text.ofNat m]) ≠ some (.link target)) →
      Beside t place number (writeChunks folder number t chunks).2 := by
  induction chunks with
  | nil => exact fun number t _ _ _ => ⟨.refl t, fun _ _ => rfl⟩
  | cons chunk rest ih =>
      intro number t hplace hfolder hfree
      rw [writeChunks]
      split
      next => exact ⟨.refl t, fun _ _ => rfl⟩
      next t' hwrite =>
        obtain ⟨_, hstored⟩ := write_chunk hplace hfolder (hfree number (Nat.le_refl _)) hwrite
        have hways := hstored.sameWays
        have hmore := ih (number + 1) t' (hways.locate_of_locate hplace)
          ((hways place .folder rfl).mp hfolder)
          (fun m hm target hlink => hfree m (by omega) target ((hways _ _ rfl).mpr hlink))
        refine ⟨hways.trans hmore.sameWays, fun q hq => ?_⟩
        exact (hmore.other q fun m hm => hq m (by omega)).trans
          (hstored.node?_other (hq number (Nat.le_refl _)))

theorem writeChunks_error {folder : Path} (hpath : checkPath folder = .ok ()) {f : Failure}
    (chunks : List Bytes) : ∀ number t,
      (writeChunks folder number t chunks).1 = .error f → f.isA (.basic .osError) = true := by
  induction chunks with
  | nil => simp [writeChunks]
  | cons chunk rest ih =>
      intro number t h
      rw [writeChunks] at h
      split at h
      next fault hwrite =>
        cases h
        exact write_eq_error (checkPath_chunkPath hpath number) hwrite
      next t' _ =>
        refine ih (number + 1) t' ?_
        revert h
        dsimp only
        cases (writeChunks folder (number + 1) t' rest).1 <;> simp [Except.map]

theorem writeChunks_ok {folder : Path} {place : Place} (chunks : List Bytes) :
    ∀ number t paths t', t.locate true folder = .ok place → t.node? place = some .folder →
      (∀ m, number ≤ m → ∀ target, t.node? (place.along [Text.ofNat m]) ≠ some (.link target)) →
      writeChunks folder number t chunks = (.ok paths, t') →
      paths = (List.range' number chunks.length).map (chunkPath folder) ∧
        List.Forall₂ (t'.Holds place) paths chunks := by
  induction chunks with
  | nil =>
      intro number t paths t' _ _ _ h
      cases h
      exact ⟨rfl, .nil⟩
  | cons chunk rest ih =>
      intro number t paths t' hplace hfolder hfree h
      rw [writeChunks] at h
      split at h
      next => simp at h
      next t₁ hwrite =>
        obtain ⟨hlocate, hstored⟩ := write_chunk hplace hfolder (hfree number (Nat.le_refl _)) hwrite
        have hways := hstored.sameWays
        have hplace' := hways.locate_of_locate hplace
        have hfolder' := (hways place .folder rfl).mp hfolder
        have hfree' (m : Nat) (hm : number + 1 ≤ m) (target : Path) :
            t₁.node? (place.along [Text.ofNat m]) ≠ some (.link target) :=
          fun hlink => hfree m (by omega) target ((hways _ _ rfl).mpr hlink)
        have hbeside := writeChunks_beside rest (number + 1) t₁ hplace' hfolder' hfree'
        dsimp only at h
        cases hrest : (writeChunks folder (number + 1) t₁ rest).1 with
        | error => simp [hrest, Except.map] at h
        | ok more =>
            simp only [hrest, Except.map, Prod.mk.injEq, Except.ok.injEq] at h
            obtain ⟨rfl, rfl⟩ := h
            obtain ⟨hpaths, hheld⟩ := ih (number + 1) t₁ more _ hplace' hfolder' hfree'
              (Prod.ext hrest rfl)
            refine ⟨by rw [hpaths, List.length_cons, List.range'_succ, List.map_cons], .cons ?_ hheld⟩
            refine ⟨FileName.settled (Text.ofNat number), ?_, ?_⟩
            · exact hbeside.sameWays.locate_of_locate (hways.locate_of_locate hlocate)
            · rw [← Place.along_singleton, hbeside.other, hstored.node?_self]
              intro m hm heq
              have := place_inj heq
              omega

/-- How splitting into a folder that is not there ends. -/
inductive SplitEnd (t : Tree) (folder : Path) (size : Int) (content : Bytes) :
    Except Failure (List Path) → Tree → Prop
  | refused {f : Failure} {t' : Tree} :
      t'.Extends t → t'.hasFolder folder = false → SplitEnd t folder size content (.error f) t'
  | broken {f : Failure} {t' : Tree} {place : Place} :
      t'.Extends t → f.isA (.basic .osError) = true → checkPath folder = .ok () →
      t'.locate false folder = .ok place → t'.node? place = some .folder → place ≠ [] →
      SplitEnd t folder size content (.error f) t'
  | done {paths : List Path} {t' : Tree} {place : Place} :
      t'.Extends t → 0 < size → checkPath folder = .ok () → t.node? place = none →
      paths = (List.range (Bytes.chunks size.toNat content).length).map (chunkPath folder) →
      List.Forall₂ (t'.Holds place) paths (Bytes.chunks size.toNat content) →
      SplitEnd t folder size content (.ok paths) t'

theorem Beside.keeps {t t' t'' : Tree} {place : Place} {number : Nat} (h : Beside t' place number t'')
    (hnew : t.node? place = none) (hkeeps : t'.Extends t) : t''.Extends t := by
  intro q node hq
  rw [h.other]
  · exact hkeeps q node hq
  · rintro m _ rfl
    rw [Place.along_singleton] at hq
    exact node?_of_node?_append place _ (Option.ne_none_iff_exists'.mpr ⟨node, hq⟩) hnew

theorem split_ends {t : Tree} {source folder : Path} {content : Bytes} (size : Int)
    (hground : t.Grounds folder) (hnew : t.hasFolder folder = false)
    (hsource : read t source = .ok content) :
    SplitEnd t folder size content (split source folder size t).1
      (split source folder size t).2 := by
  have hlaid := makeFolders_laid hground
  unfold split
  split
  next => exact .refused (.refl t) hnew
  next hsize =>
    split
    next f t' hmake =>
      rw [hmake] at hlaid
      exact .refused hlaid.keeps (Laid.not_hasFolder hlaid hnew)
    next t' hmake =>
      rw [hmake] at hlaid
      have hkeeps : t'.Extends t := hlaid.keeps
      obtain ⟨place, hfresh⟩ := Laid.fresh hlaid hnew
      have hpath : checkPath folder = .ok () := by
        unfold makeFolders at hmake
        split at hmake
        next => simp at hmake
        next h => exact h
      obtain ⟨hsourcePath, hfound⟩ := read_eq_ok_iff.mp hsource
      have hread : read t' source = .ok content :=
        read_eq_ok_iff.mpr ⟨hsourcePath, hkeeps.find hfound⟩
      have hfree (m : Nat) (_ : 0 ≤ m) (target : Path) :
          t'.node? (place.along [Text.ofNat m]) ≠ some (.link target) := by
        rw [Place.along_singleton, hfresh.empty _ (by simp)]
        nofun
      have hbeside := writeChunks_beside (Bytes.chunks size.toNat content) 0 t'
        (hfresh.located true) hfresh.isFolder hfree
      rw [hread]
      dsimp only
      cases hwrite : (writeChunks folder 0 t' (Bytes.chunks size.toNat content)).1 with
      | error f =>
          refine .broken (hbeside.keeps hfresh.isNew hkeeps)
            (writeChunks_error hpath _ 0 t' hwrite) hpath
            (hbeside.sameWays.locate_of_locate (hfresh.located false))
            ((hbeside.sameWays place .folder rfl).mp hfresh.isFolder) ?_
          rintro rfl
          exact absurd hfresh.isNew (by simp)
      | ok paths =>
          obtain ⟨hpaths, hheld⟩ := writeChunks_ok (Bytes.chunks size.toNat content) 0 t' paths _
            (hfresh.located true) hfresh.isFolder hfree (Prod.ext hwrite rfl)
          rw [← List.range_eq_range'] at hpaths
          exact .done (hbeside.keeps hfresh.isNew hkeeps) (by omega) hpath hfresh.isNew hpaths hheld

end Files

end RemoteModel
