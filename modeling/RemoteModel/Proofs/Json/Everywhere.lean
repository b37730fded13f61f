import RemoteModel.Json.Basic
import RemoteModel.Number.Numeral

/-!
Properties of all the values in a document.
-/

namespace RemoteModel.Json

def children : Json → List Json
  | .arr items => items
  | .obj fields => fields.map Prod.snd
  | _ => []

/-- A property of a value and of all values in it. -/
inductive Everywhere (p : Json → Prop) : Json → Prop
  | intro {v : Json} : p v → (∀ w ∈ v.children, Everywhere p w) → Everywhere p v

/-- Text is well formed, and no object repeats a name. -/
def Tidy : Json → Prop
  | .str t => t.isWellFormed = true
  | .obj fields =>
      (∀ name ∈ Entries.names fields, name.isWellFormed = true) ∧ (Entries.names fields).Nodup
  | _ => True

/-- Numbers are whole, and none is too long to be read. -/
def Exact : Json → Prop
  | .int i => (Text.ofNat i.natAbs).length ≤ Numeral.digitLimit
  | .float _ => False
  | _ => True

namespace Everywhere

variable {p q : Json → Prop} {v : Json}

theorem here (h : Everywhere p v) : p v := by
  cases h
  assumption

theorem inside (h : Everywhere p v) : ∀ w ∈ v.children, Everywhere p w := by
  cases h
  assumption

theorem leaf (hchildren : v.children = []) (h : p v) : Everywhere p v :=
  .intro h (by rw [hchildren]; nofun)

theorem items {items : List Json} (h : Everywhere p (.arr items)) : ∀ v ∈ items, Everywhere p v :=
  h.inside

theorem field {fields : List (Text × Json)} (h : Everywhere p (.obj fields)) {name : Text}
    {v : Json} (hfield : (name, v) ∈ fields) : Everywhere p v :=
  h.inside v (List.mem_map_of_mem (f := Prod.snd) hfield)

theorem arr {items : List Json} (hnode : p (.arr items)) (hitems : ∀ v ∈ items, Everywhere p v) :
    Everywhere p (.arr items) :=
  .intro hnode hitems

theorem obj {fields : List (Text × Json)} (hnode : p (.obj fields))
    (hfields : ∀ f ∈ fields, Everywhere p f.2) : Everywhere p (.obj fields) :=
  .intro hnode (List.forall_mem_map.mpr hfields)

end Everywhere

end RemoteModel.Json
