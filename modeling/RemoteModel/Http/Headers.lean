import RemoteModel.Entries
import RemoteModel.Text.Case

/-!
Headers: values under names whose case does not matter. No two names differ only in case, and a name
keeps the place where it first came.
-/

namespace RemoteModel

namespace Headers

/-- The entries with a value set; the given spelling of the name replaces the one before. -/
def putIn (name value : Text) : Entries Text → Entries Text
  | [] => [(name, value)]
  | (n, v) :: rest =>
      if n.lower = name.lower then (name, value) :: rest else (n, v) :: putIn name value rest

def keysOf (es : Entries Text) : List Text := es.map fun e => e.1.lower

theorem mem_keysOf_putIn (name value key : Text) (es : Entries Text) :
    key ∈ keysOf (putIn name value es) ↔ key = name.lower ∨ key ∈ keysOf es := by
  induction es with
  | nil => simp [putIn, keysOf]
  | cons e rest ih =>
      obtain ⟨n, v⟩ := e
      by_cases h : n.lower = name.lower
      · simp [putIn, keysOf, h]
      · simp only [keysOf] at ih
        simp only [putIn, if_neg h, keysOf, List.map_cons, List.mem_cons, ih]
        exact or_left_comm

theorem nodup_putIn (name value : Text) (es : Entries Text) (h : (keysOf es).Nodup) :
    (keysOf (putIn name value es)).Nodup := by
  induction es with
  | nil => simp [putIn, keysOf]
  | cons e rest ih =>
      obtain ⟨n, v⟩ := e
      simp only [keysOf, List.map_cons, List.nodup_cons] at h
      by_cases hn : n.lower = name.lower
      · simp only [putIn, if_pos hn, keysOf, List.map_cons, List.nodup_cons]
        exact ⟨hn ▸ h.1, h.2⟩
      · have hm := mem_keysOf_putIn name value n.lower rest
        simp only [keysOf] at ih hm
        simp only [putIn, if_neg hn, keysOf, List.map_cons, List.nodup_cons, hm]
        exact ⟨fun hc => hc.elim hn h.1, ih h.2⟩

end Headers

structure Headers where
  entries : Entries Text
  nodup : (Headers.keysOf entries).Nodup
  deriving DecidableEq, Repr

namespace Headers

def empty : Headers := ⟨[], by simp [keysOf]⟩

def put (h : Headers) (name value : Text) : Headers :=
  ⟨putIn name value h.entries, nodup_putIn name value h.entries h.nodup⟩

def erase (h : Headers) (name : Text) : Headers :=
  ⟨h.entries.filter fun e => e.1.lower ≠ name.lower,
    h.nodup.sublist (List.filter_sublist.map _)⟩

def filter (h : Headers) (p : Text → Bool) : Headers :=
  ⟨h.entries.filter fun e => p e.1, h.nodup.sublist (List.filter_sublist.map _)⟩

def get? (h : Headers) (name : Text) : Option Text :=
  (h.entries.find? fun e => e.1.lower = name.lower).map Prod.snd

def has (h : Headers) (name : Text) : Bool := (h.get? name).isSome

def putAll (h : Headers) (es : Entries Text) : Headers :=
  es.foldl (fun h e => h.put e.1 e.2) h

def ofEntries (es : Entries Text) : Headers := empty.putAll es

end Headers

end RemoteModel
