import RemoteModel.Files.Access

/-!
Splitting: bytes are cut into chunks of one size, the last of which may be shorter, and the chunks of
a file are written side by side under the numbers from nought on.
-/

namespace RemoteModel

/-- The chunks of bytes in order; a chunk holds one byte at least. -/
def Bytes.chunks (size : Nat) : Bytes → List Bytes
  | [] => []
  | b :: rest => (b :: rest.take (size - 1)) :: chunks size (rest.drop (size - 1))
  termination_by bytes => bytes.length
  decreasing_by simp only [List.length_drop, List.length_cons]; omega

namespace Files

def chunkPath (folder : Path) (number : Nat) : Path := folder.child (Text.ofNat number)

/-- Writes chunks under the numbers from `number` on and yields their paths. Chunks before one that
cannot be written stay. -/
def writeChunks (folder : Path) (number : Nat) (t : Tree) :
    List Bytes → Except Failure (List Path) × Tree
  | [] => (.ok [], t)
  | chunk :: rest =>
      match write t (chunkPath folder number) chunk with
      | .error f => (.error f, t)
      | .ok t =>
          match writeChunks folder (number + 1) t rest with
          | (paths, t) => (paths.map (chunkPath folder number :: ·), t)

/-- Splits a file into a folder, which is made if it is not there. -/
def split (source folder : Path) (size : Int) (t : Tree) : Except Failure (List Path) × Tree :=
  if size ≤ 0 then (.error (.chunkSizeNotPositive size), t)
  else
    match makeFolders folder t with
    | (.error f, t) => (.error f, t)
    | (.ok (), t) =>
        match read t source with
        | .error f => (.error f, t)
        | .ok content => writeChunks folder 0 t (Bytes.chunks size.toNat content)

end Files

end RemoteModel
