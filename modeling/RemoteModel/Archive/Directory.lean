import RemoteModel.Failure

/-!
Zip archives. What an archive holds stands in its central directory, a run of entries right before
the end record. The end record is the last thing in the archive but for a comment; the entries
themselves and the number of them that the record gives are not looked at.
-/

namespace RemoteModel

namespace Archive

def number (bytes : Bytes) : Nat := bytes.foldr (fun b n => b.toNat + 256 * n) 0

def field (record : Bytes) (start width : Nat) : Nat := number ((record.drop start).take width)

def endMark : Bytes := [0x50, 0x4B, 0x05, 0x06]

def wideEndMark : Bytes := [0x50, 0x4B, 0x06, 0x06]

def wideLocatorMark : Bytes := [0x50, 0x4B, 0x06, 0x07]

def entryMark : Bytes := [0x50, 0x4B, 0x01, 0x02]

def endSize : Nat := 22

def wideEndSize : Nat := 56

def wideLocatorSize : Nat := 20

def entrySize : Nat := 46

/-- How far behind the end record the archive may go on. -/
def commentReach : Nat := 0x10000

/-- The versions of the format that are understood, as ten times their number. -/
def versionLimit : Nat := 63

/-- The last place of a mark, after those found before. -/
def lastPlace (mark : Bytes) (here : Nat) (found : Option Nat) : Bytes → Option Nat
  | [] => found
  | b :: rest =>
      lastPlace mark (here + 1) (if mark.isPrefixOf (b :: rest) then some here else found) rest

/-- Where the end record starts: at the very end when there is no comment, otherwise at its last mark
within the reach of a comment. -/
def endPlace (file : Bytes) : Option Nat :=
  let size := file.length
  let last := file.drop (size - endSize)
  if size < endSize then none
  else if endMark.isPrefixOf last && field last 20 2 = 0 then some (size - endSize)
  else
    let start := size - (commentReach + endSize)
    match lastPlace endMark start none (file.drop start) with
    | some place => if size < place + endSize then none else some place
    | none => none

/-- The size of the central directory and the place where it ends. A second end record with wider
fields may stand before the first, behind it a locator. -/
def extent (file : Bytes) (place : Nat) : Except Failure (Nat × Nat) :=
  let plain := (field (file.drop place) 12 4, place)
  let locator := file.drop (place - wideLocatorSize)
  let before := wideLocatorSize + wideEndSize
  let wide := file.drop (place - before)
  if place < wideLocatorSize || !wideLocatorMark.isPrefixOf locator then .ok plain
  else if field locator 4 4 ≠ 0 || 1 < field locator 16 4 then .error .notArchive
  else if place < before then .error .notArchive
  else if !wideEndMark.isPrefixOf wide then .ok plain
  else .ok (field wide 40 8, place - before)

def directory (file : Bytes) : Except Failure Bytes :=
  match endPlace file with
  | none => .error .notArchive
  | some place => do
      let (size, stop) ← extent file place
      if stop < size then throw .notArchive
      return (file.drop (stop - size)).take size

/-- A number of an entry that may be too wide for its field; it stands elsewhere when the field holds
one of some marks. -/
structure WideNumber where
  marks : List Nat
  value : Nat

def widen : List WideNumber → Bytes → Except Failure (List WideNumber)
  | [], _ => .ok []
  | n :: rest, data =>
      if n.marks.contains n.value then
        if data.length < 8 then .error .notArchive
        else return { n with value := field data 0 8 } :: (← widen rest (data.drop 8))
      else return n :: (← widen rest data)

/-- Checks the extra fields of an entry: each fits, and the one for wide numbers holds them. Fewer
than four bytes are no field. -/
def checkExtra (numbers : List WideNumber) (extra : Bytes) : Except Failure Unit :=
  if h : extra.length < 4 then .ok ()
  else
    let size := field extra 2 2
    if extra.length < size + 4 then .error .notArchive
    else do
      let numbers ←
        if field extra 0 2 = 1 then widen numbers ((extra.drop 4).take size) else pure numbers
      checkExtra numbers (extra.drop (size + 4))
  termination_by extra.length
  decreasing_by rw [List.length_drop]; omega

/-- The name of an entry ends before its first null. One that claims to be UTF-8 must be. -/
def entryName (flags : Nat) (bytes : Bytes) : Except Failure Bytes := do
  if flags / 0x800 % 2 = 1 then
    match Utf8.decode bytes with
    | .ok _ => pure ()
    | .error fault => throw (.notUtf8 fault)
  return bytes.takeWhile (· ≠ 0)

/-- The name in the first entry. -/
def readEntry (entry : Bytes) : Except Failure Bytes := do
  if entry.length < entrySize || !entryMark.isPrefixOf entry then throw .notArchive
  let nameSize := field entry 28 2
  let body := entry.drop entrySize
  let name ← entryName (field entry 8 2) (body.take nameSize)
  let version := field entry 6 1
  if versionLimit < version then throw (.archiveTooNew version)
  checkExtra [⟨[0xFFFFFFFF, 0xFFFFFFFFFFFFFFFF], field entry 24 4⟩,
    ⟨[0xFFFFFFFF], field entry 20 4⟩, ⟨[0xFFFFFFFF], field entry 42 4⟩]
    ((body.drop nameSize).take (field entry 30 2))
  return name

/-- The size of the first entry. -/
def entryExtent (entry : Bytes) : Nat :=
  entrySize + field entry 28 2 + field entry 30 2 + field entry 32 2

def entryNames (directory : Bytes) : Except Failure (List Bytes) :=
  match directory with
  | [] => .ok []
  | b :: rest => do
      let name ← readEntry (b :: rest)
      return name :: (← entryNames ((b :: rest).drop (entryExtent (b :: rest))))
  termination_by directory.length
  decreasing_by simp only [List.length_drop, List.length_cons, entryExtent, entrySize]; omega

def memberNames (file : Bytes) : Except Failure (List Bytes) := do entryNames (← directory file)

end Archive

end RemoteModel
