import RemoteModel.Artifact.Staging
import RemoteModel.Proofs.Files.Splitting

/-!
Where a registration works: the archive lies beside the folder of the registration, and the chunks lie
in that folder.
-/

namespace RemoteModel

open RemoteModel.Tree

namespace ArtifactSettings

theorem isProper_folder {root : Path} (h : root.IsProper) (id : Text) (model version : Option Text) :
    (folder root id model version).IsProper := by
  unfold folder
  split
  · exact ((h.child _).child _).child _
  · exact h.child _

theorem isProper_registerPath (s : ArtifactSettings) (id : Text) (model version : Option Text) :
    (s.registerPath id model version).IsProper :=
  isProper_folder ((((Path.isProper_ofText _).child _).child _).child _) id model version

end ArtifactSettings

namespace ModelCache

theorem isProper_stagingFolder (c : ModelCache) (r : Registration) (task : Text)
    (version : Option Text) : (c.stagingFolder r task version).IsProper :=
  c.layout.isProper_registerPath _ _ _

theorem ending_ne_twoDots (front : Text) : front ++ Text.ofString ".zip" ≠ twoDots := by
  intro h
  have hlength := congrArg List.length h
  rw [List.length_append] at hlength
  have hzip : (Text.ofString ".zip").length = 4 := rfl
  have hdots : twoDots.length = 2 := rfl
  omega

theorem isPart_ending {front : Text} (h : Path.slash ∉ front) :
    Path.IsPart (front ++ Text.ofString ".zip") := by
  constructor
  · have hdot : front ++ Text.ofString ".zip" ≠ Text.ofString "." := by
      intro heq
      have hlength := congrArg List.length heq
      rw [List.length_append] at hlength
      have hzip : (Text.ofString ".zip").length = 4 := rfl
      have hone : (Text.ofString ".").length = 1 := rfl
      omega
    have hne : front ++ Text.ofString ".zip" ≠ [] := by simp [Text.ofString]
    simp [Path.isName, hdot, hne]
  · rw [List.mem_append, not_or]
    exact ⟨h, by decide⟩

theorem archivePath_eq {folder : Path} (h : folder.IsProper) :
    ∃ name, name ≠ twoDots ∧
      archivePath folder = ⟨folder.anchor, folder.parts.dropLast ++ [name]⟩ := by
  obtain ⟨anchor, parts⟩ := folder
  rcases parts.eq_nil_or_concat with rfl | ⟨front, last, rfl⟩
  · cases anchor with
    | here => exact ⟨"..zip", ending_ne_twoDots ".", by decide⟩
    | root => exact ⟨".zip", ending_ne_twoDots [], by decide⟩
    | twin => exact ⟨".zip", ending_ne_twoDots [], by decide⟩
  · rw [List.concat_eq_append] at h ⊢
    refine ⟨last ++ ".zip", ending_ne_twoDots _, ?_⟩
    rw [archivePath, Path.text_append, List.dropLast_concat]
    refine Path.ofText_text fun part hpart => ?_
    rcases List.mem_append.mp hpart with hpart | hpart
    · exact h part (List.mem_append_left _ hpart)
    · rw [List.mem_singleton.mp hpart]
      exact isPart_ending (h last (by simp)).whole

theorem isPart_chunks : Path.IsPart "chunks" := ⟨by decide, by decide⟩

theorem chunksPath_eq (folder : Path) :
    chunksPath folder = ⟨folder.anchor, folder.parts ++ [Text.ofString "chunks"]⟩ :=
  Path.child_part folder isPart_chunks

theorem chunkPath_text (folder : Path) (number : Nat) :
    (Files.chunkPath (chunksPath folder) number).text =
      (chunksPath folder).text ++ Text.ofString "/" ++ Text.ofNat number := by
  rw [Files.chunkPath_eq, chunksPath_eq]
  exact Path.text_snoc folder.anchor (by simp) (Text.ofNat number)

theorem isProper_chunkPath {folder : Path} (h : folder.IsProper) (number : Nat) :
    (Files.chunkPath (chunksPath folder) number).IsProper :=
  (h.child _).child _

end ModelCache

end RemoteModel
