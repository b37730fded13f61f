import RemoteModel.Files.Tree
import RemoteModel.Log.Record

/-!
Work on files as a program sees it: every fault names the path that was asked for. An operation that
fails half-way leaves what it has done so far.
-/

namespace RemoteModel

def Text.unifyBreaks : Text → Text
  | [] => []
  | .scalar '\r' :: .scalar '\n' :: rest => .scalar '\n' :: unifyBreaks rest
  | .scalar '\r' :: rest => .scalar '\n' :: unifyBreaks rest
  | r :: rest => r :: unifyBreaks rest

namespace Files

/-- Paths that cannot be named to the system at all are refused. -/
def checkPath (p : Path) : Except Failure Unit :=
  match Utf8.firstUnwritable FileName.isWritable p.text with
  | some (rune, first, last) => .error (.notWritable rune first last)
  | none =>
      if p.parts.any fun name => name.contains (.scalar '\x00') then .error .nullInPath else .ok ()

def named (p : Path) {α : Type} (r : Except FileFault α) : Except Failure α :=
  match r with
  | .ok v => .ok v
  | .error fault => .error (.file fault p.text)

def read (t : Tree) (p : Path) : Except Failure Bytes := do
  checkPath p
  named p (t.read p)

/-- The text in a file; its bytes must be UTF-8. -/
def readText (t : Tree) (p : Path) : Except Failure Text := do
  match Utf8.decode (← read t p) with
  | .ok text => return text.unifyBreaks
  | .error fault => throw (.notUtf8 fault)

def write (t : Tree) (p : Path) (content : Bytes) : Except Failure Tree := do
  checkPath p
  named p (t.write p content)

/-- Makes a folder and, where `depth` allows, those above it. A folder that is there is fine. -/
def makeFoldersTo (depth : Nat) (p : Path) (t : Tree) : Except Failure Unit × Tree :=
  match t.makeFolder p with
  | .ok t => (.ok (), t)
  | .error .notFound =>
      match depth with
      | 0 => (.error (.file .notFound p.text), t)
      | depth + 1 =>
          match makeFoldersTo depth p.parent t with
          | (.error f, t) => (.error f, t)
          | (.ok (), t) =>
              match t.makeFolder p with
              | .ok t => (.ok (), t)
              | .error fault =>
                  if t.hasFolder p then (.ok (), t)
                  else (.error (.file fault p.text), t)
  | .error fault =>
      if t.hasFolder p then (.ok (), t) else (.error (.file fault p.text), t)

def makeFolders (p : Path) (t : Tree) : Except Failure Unit × Tree :=
  match checkPath p with
  | .error f => (.error f, t)
  | .ok () => makeFoldersTo p.parts.length p t

/-- Removes a folder with all that lies in it. A folder behind a link is not removed; one that is
named by two dots is emptied, and then its name leads nowhere. -/
def removeTree (p : Path) (t : Tree) : Except Failure Unit × Tree :=
  match t.locate false p with
  | .error fault => (.error (.file fault p.text), t)
  | .ok place =>
      match t.node? place with
      | some .folder =>
          let emptied := t.eraseBelow place
          match emptied.locate false p with
          | .ok place => (.ok (), emptied.erase place)
          | .error fault => (.error (.file fault p.text), emptied)
      | some _ => (.error .linkRemoval, t)
      | none => (.error (.file .notFound p.text), t)

def remove (p : Path) (t : Tree) : Except Failure Unit × Tree :=
  match checkPath p with
  | .error _ => (.ok (), t)
  | .ok () =>
      match t.isFolder p with
      | .error fault => (.error (.file fault p.text), t)
      | .ok true => removeTree p t
      | .ok false =>
          match t.exists? p with
          | .error fault => (.error (.file fault p.text), t)
          | .ok false => (.ok (), t)
          | .ok true =>
              match t.remove p with
              | .ok t => (.ok (), t)
              | .error fault => (.error (.file fault p.text), t)

/-- Removes what a path names; what goes wrong is logged and forgotten. -/
def removeQuietly (logger : Text) (p : Path) (t : Tree) : List LogRecord × Tree :=
  match remove p t with
  | (.ok (), t) => ([], t)
  | (.error f, t) =>
      ([⟨.warning, logger, "Failed to delete " ++ p.text, [("error_type", .str f.kind.name)]⟩], t)

def areSame (t : Tree) (p q : Path) : Bool :=
  match t.locate true p, t.locate true q with
  | .ok a, .ok b => a = b && (t.node? a).isSome
  | _, _ => false

def copy (source target : Path) (t : Tree) : Except Failure Tree := do
  checkPath source
  checkPath target
  if areSame t source target then throw (.sameFile source.text target.text)
  let content ← named source (t.read source)
  named target (t.write target content)

def size (t : Tree) (p : Path) : Except Failure Nat := do
  checkPath p
  match ← named p (t.find p) with
  | .file content => return content.length
  | _ => return 0

end Files

end RemoteModel
