import RemoteModel.Text.Rune

/-!
Named values in the order in which their names first came.
-/

namespace RemoteModel

abbrev Entries (α : Type) := List (Text × α)

namespace Entries

variable {α β : Type}

def get? (es : Entries α) (name : Text) : Option α :=
  match es with
  | [] => none
  | (n, v) :: rest => if n = name then some v else get? rest name

def has (es : Entries α) (name : Text) : Bool := (es.get? name).isSome

/-- Sets a value; a name that is there keeps its place. -/
def put (es : Entries α) (name : Text) (value : α) : Entries α :=
  match es with
  | [] => [(name, value)]
  | (n, v) :: rest =>
      if n = name then (name, value) :: rest else (n, v) :: put rest name value

def putAll (es more : Entries α) : Entries α := more.foldl (fun acc e => acc.put e.1 e.2) es

def ofPairs (pairs : List (Text × α)) : Entries α := putAll [] pairs

def names (es : Entries α) : List Text := es.map Prod.fst

def mapValues (f : α → β) (es : Entries α) : Entries β := es.map fun e => (e.1, f e.2)

end Entries

end RemoteModel
