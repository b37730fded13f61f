import RemoteModel.Text.Rune
import RemoteModel.Text.Table.Case

/-!
Upper and lower case over all scripts. A letter may turn into several letters, and the Greek
letter sigma has a second lower case at the end of a word.
-/

namespace RemoteModel

namespace Rune

def inRanges (ranges : List (Nat × Nat)) (n : Nat) : Bool :=
  ranges.any fun (first, last) => first ≤ n && n ≤ last

def shiftIn (runs : List (Nat × Nat × Nat × Int)) (n : Nat) : Option Nat :=
  (runs.find? fun (first, last, step, _) => first ≤ n && n ≤ last && (n - first) % step == 0).map
    fun (_, _, _, shift) => (n + shift).toNat

def upperFull (r : Rune) : Text :=
  let n := r.code
  if n < 0x80 then [if r.isAsciiLower then ofCode (n - 0x20) else r]
  else match Table.upperSpecials.lookup n with
    | some codes => codes.map ofCode
    | none => [(shiftIn Table.upperRuns n).elim r ofCode]

def lowerFull (r : Rune) : Text :=
  let n := r.code
  if n < 0x80 then [if r.isAsciiUpper then ofCode (n + 0x20) else r]
  else match Table.lowerSpecials.lookup n with
    | some codes => codes.map ofCode
    | none => [(shiftIn Table.lowerRuns n).elim r ofCode]

def isCased (r : Rune) : Bool := inRanges Table.casedRanges r.code

def isCaseIgnorable (r : Rune) : Bool := inRanges Table.caseIgnorableRanges r.code

end Rune

namespace Text

def upper (t : Text) : Text := t.flatMap Rune.upperFull

/-- Whether the nearest rune that the search does not skip has case. -/
def meetsCased (t : Text) : Bool :=
  match t.dropWhile Rune.isCaseIgnorable with
  | [] => false
  | r :: _ => r.isCased

/-- Lower case of the rest, given the runes before it in reverse order. -/
def lowerAfter (before : Text) : Text → Text
  | [] => []
  | r :: rest =>
      let here :=
        if r = .scalar 'Σ' then
          [.scalar (if meetsCased before && !meetsCased rest then 'ς' else 'σ')]
        else r.lowerFull
      here ++ lowerAfter (r :: before) rest

def lower (t : Text) : Text := lowerAfter [] t

end Text

end RemoteModel
