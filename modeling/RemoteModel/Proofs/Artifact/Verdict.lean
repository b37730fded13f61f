import RemoteModel.Artifact.Staging
import RemoteModel.Proofs.Artifact.Layout
import RemoteModel.Proofs.Files.Removal

/-!
What becomes of an archive that was fetched. It is refused and leaves no folder of chunks, or it is
accepted and its chunks are its bytes.
-/

namespace RemoteModel

open RemoteModel.Tree

namespace ModelCache

theorem removeQuietly_files (logger : Text) (p : Path) (t : Tree) :
    (Files.removeQuietly logger p t).2 = (Files.remove p t).2 := by
  unfold Files.removeQuietly
  split <;> simp_all

theorem discard_files (p : Path) (h : Host) : (discard p h).files = (Files.remove p h.files).2 :=
  removeQuietly_files logger p h.files

def Unasked (h h' : Host) : Prop := h'.exchanges = h.exchanges ∧ h'.deliveries = h.deliveries

theorem splitArchive_unasked (c : ModelCache) (archive chunks : Path) (h : Host) :
    Unasked h (c.splitArchive archive chunks h).2 := by
  unfold splitArchive
  split
  next => exact ⟨rfl, rfl⟩
  next =>
    dsimp only
    split <;> exact ⟨rfl, rfl⟩

theorem accept_unasked (c : ModelCache) (r : Registration) (task : Text) (archive chunks : Path)
    (h : Host) : Unasked h (c.accept r task archive chunks h).2 := by
  unfold accept
  dsimp only
  split
  next => exact ⟨rfl, rfl⟩
  next =>
    split
    next => exact ⟨rfl, rfl⟩
    next =>
      have hsplit := c.splitArchive_unasked archive chunks h
      split
      next hrun => rwa [hrun] at hsplit
      next hrun => rwa [hrun] at hsplit

theorem read_of_remove {archive path : Path} {t t' : Tree} {place : Place} {content chunk : Bytes}
    (hholds : t'.Holds place path chunk) (hkeeps : t'.Extends t) (hfree : t.node? place = none)
    (hpath : Files.checkPath archive = .ok ()) (hfound : t.find archive = .ok (.file content))
    (hask : Files.checkPath path = .ok ()) :
    Files.read (Files.remove archive t').2 path = .ok chunk := by
  have hfound' := hkeeps.find hfound
  obtain ⟨last, hlast, hunlinked⟩ := Files.remove_file hpath ⟨_, hfound'⟩
    (not_hasFolder_of_find hfound' (by simp))
  obtain ⟨source, hsource, hnode⟩ := find_eq_ok_iff.mp hfound
  have hsource' := hkeeps.locate hsource (by simp [hnode])
  obtain ⟨name, hlocate, hcontent⟩ := hholds
  have hne : place ++ [name] ≠ source := by
    rintro rfl
    exact node?_of_node?_append place [name] (by simp [hnode]) hfree
  obtain ⟨hkept, hsame⟩ := hunlinked.locate hlast hsource' (by simp [hkeeps _ _ hnode]) hlocate hne
  exact Files.read_eq_ok_iff.mpr ⟨hask, find_eq_ok_iff.mpr ⟨_, hkept, hsame.trans hcontent⟩⟩

/-- An archive was refused, or it was accepted: it has the declared hash, and its chunks lie in a place
where there was nothing. -/
inductive Verdict (c : ModelCache) (r : Registration) (archive chunks : Path) (content : Bytes)
    (t : Tree) : Except Failure ArtifactMetadata → Tree → Prop
  | refused {f : Failure} {t' : Tree} :
      t'.hasFolder archive = false → t'.hasFolder chunks = false →
      Verdict c r archive chunks content t (.error f) t'
  | accepted {t' : Tree} {paths : List Path} {place : Place} :
      t'.Extends t → r.hash = some (Sha256.hexHash content) → 0 < c.layout.chunkSize →
      Files.checkPath chunks = .ok () → t.node? place = none →
      paths = (List.range (Bytes.chunks c.layout.chunkSize.toNat content).length).map
        (Files.chunkPath chunks) →
      List.Forall₂ (t'.Holds place) paths (Bytes.chunks c.layout.chunkSize.toNat content) →
      Verdict c r archive chunks content t
        (.ok ⟨paths.map Path.text, content.length, Sha256.hexHash content⟩) t'

variable {r : Registration} {archive chunks : Path} {content : Bytes}

theorem size_eq {t : Tree} (hpath : Files.checkPath archive = .ok ())
    (hfound : t.find archive = .ok (.file content)) :
    Files.size t archive = .ok content.length := by
  simp [Files.size, hpath, hfound, Files.named, bind, Except.bind, pure, Except.pure]

theorem hash_eq_ok {t : Tree} {hash : Text} (hfound : t.find archive = .ok (.file content))
    (h : (do
      Archive.verify r.format (some r.function) r.name archive t
      Files.hash t archive) = .ok hash) : hash = Sha256.hexHash content := by
  cases hverify : Archive.verify r.format (some r.function) r.name archive t with
  | error => simp [hverify, bind, Except.bind] at h
  | ok =>
      simp only [hverify, bind, Except.bind, Files.hash] at h
      cases hread : Files.read t archive with
      | error => simp [hread, Except.map] at h
      | ok bytes =>
          obtain ⟨_, hfile⟩ := Files.read_eq_ok_iff.mp hread
          rw [hfound] at hfile
          cases hfile
          simpa [hread, Except.map, eq_comm] using h

theorem splitArchive_verdict (c : ModelCache) {h : Host} (hground : h.files.Grounds chunks)
    (hnew : h.files.hasFolder chunks = false) (hpath : Files.checkPath archive = .ok ())
    (hfound : h.files.find archive = .ok (.file content))
    (hdeclared : r.hash = some (Sha256.hexHash content)) :
    Verdict c r archive chunks content h.files
      ((c.splitArchive archive chunks h).1.bind fun paths =>
        (Files.size (c.splitArchive archive chunks h).2.files archive).map fun size =>
          ⟨paths.map Path.text, size, Sha256.hexHash content⟩)
      (c.splitArchive archive chunks h).2.files := by
  have hfile {t : Tree} (hkeeps : t.Extends h.files) : t.hasFolder archive = false :=
    not_hasFolder_of_find (hkeeps.find hfound) (by simp)
  have hends := Files.split_ends c.layout.chunkSize hground hnew
    (Files.read_eq_ok_iff.mpr ⟨hpath, hfound⟩)
  unfold splitArchive
  split
  next paths files hsplit =>
    rw [hsplit] at hends
    cases hends with
    | done hkeeps hsize hchunks hplace hpaths hheld =>
        have hcount := size_eq hpath (hkeeps.find hfound)
        simp only [Except.bind, hcount, Except.map]
        exact .accepted hkeeps hdeclared hsize hchunks hplace hpaths hheld
  next f files hsplit =>
    rw [hsplit] at hends
    dsimp only [Except.bind]
    cases hends with
    | refused hkeeps hnot =>
        split
        next =>
          have hless : files.Extends (discard chunks { h with files }).files := by
            rw [discard_files]
            exact Files.extends_remove chunks files
          refine .refused ?_ ?_
          · exact hless.not_hasFolder (hfile hkeeps)
          · exact hless.not_hasFolder hnot
        next => exact .refused (hfile hkeeps) hnot
    | broken hkeeps hsystem hchunks hplace hfolder hroot =>
        rw [if_pos hsystem]
        refine .refused ?_ ?_
        · rw [discard_files]
          exact (Files.extends_remove chunks files).not_hasFolder (hfile hkeeps)
        · rw [discard_files]
          exact Files.not_hasFolder_remove hchunks hplace hfolder hroot

theorem accept_verdict (c : ModelCache) (task : Text) {h : Host}
    (hground : h.files.Grounds chunks) (hnew : h.files.hasFolder chunks = false)
    (hpath : Files.checkPath archive = .ok ())
    (hfound : h.files.find archive = .ok (.file content)) :
    Verdict c r archive chunks content h.files (c.accept r task archive chunks h).1
      (c.accept r task archive chunks h).2.files := by
  have hfile : h.files.hasFolder archive = false := not_hasFolder_of_find hfound (by simp)
  unfold accept
  dsimp only
  split
  next => exact .refused hfile hnew
  next hash hseen =>
    obtain rfl := hash_eq_ok hfound hseen
    split
    next => exact .refused hfile hnew
    next hdeclared =>
      have hsplit := c.splitArchive_verdict hground hnew hpath hfound (not_not.mp hdeclared)
      split
      next hrun =>
        rw [hrun] at hsplit
        exact hsplit
      next hrun =>
        rw [hrun] at hsplit
        exact hsplit

theorem Verdict.discard {c : ModelCache} {t t' : Tree} {result : Except Failure ArtifactMetadata}
    (h : Verdict c r archive chunks content t result t') (hpath : Files.checkPath archive = .ok ())
    (hfound : t.find archive = .ok (.file content)) :
    ¬(Files.remove archive t').2.Names archive ∧
      match result with
      | .error _ => (Files.remove archive t').2.hasFolder chunks = false
      | .ok m =>
          r.hash = some (Sha256.hexHash content) ∧ 0 < c.layout.chunkSize ∧
          m = ⟨((List.range (Bytes.chunks c.layout.chunkSize.toNat content).length).map
            (Files.chunkPath chunks)).map Path.text, content.length, Sha256.hexHash content⟩ ∧
          List.Forall₂ (fun path chunk => Files.read (Files.remove archive t').2 path = .ok chunk)
            ((List.range (Bytes.chunks c.layout.chunkSize.toNat content).length).map
              (Files.chunkPath chunks)) (Bytes.chunks c.layout.chunkSize.toNat content) := by
  cases h with
  | refused hfolder hnot =>
      exact ⟨Files.not_names_remove hpath hfolder,
        (Files.extends_remove archive t').not_hasFolder hnot⟩
  | @accepted t' paths place hkeeps hdeclared hsize hchunks hfree hpaths hheld =>
      have hfound' := hkeeps.find hfound
      have hfile : t'.hasFolder archive = false := not_hasFolder_of_find hfound' (by simp)
      refine ⟨Files.not_names_remove hpath hfile, hdeclared, hsize, by rw [hpaths], ?_⟩
      rw [← hpaths]
      have haskable (path : Path) (hmem : path ∈ paths) : Files.checkPath path = .ok () := by
        rw [hpaths] at hmem
        obtain ⟨number, _, rfl⟩ := List.mem_map.mp hmem
        exact Files.checkPath_chunkPath hchunks number
      refine (List.forall₂_and_left _ _ |>.mpr ⟨haskable, hheld⟩).imp ?_
      rintro path chunk ⟨hask, hholds⟩
      exact read_of_remove hholds hkeeps hfree hpath hfound hask

end ModelCache

end RemoteModel
