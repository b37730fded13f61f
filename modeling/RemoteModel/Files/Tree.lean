import RemoteModel.Failure
import RemoteModel.Files.Name
import RemoteModel.Files.Path

/-!
Trees of files. A node lies at a place, the list of the names that lead to it from the root, each as
the text that the system's name is read as; folders and links are nodes of their own. A path is followed
through links to the place that it names.
-/

namespace RemoteModel

inductive Node where
  | file (content : Bytes)
  | folder
  | link (target : Path)
  deriving DecidableEq, Repr

abbrev Place := List Text

def Place.le : Place → Place → Bool
  | [], _ => true
  | _, [] => false
  | a :: p, b :: q => if a = b then le p q else Text.le a b

/-- The node that a list gives to a place first. -/
def Node.lookup (place : Place) : List (Place × Node) → Option Node
  | [] => none
  | (p, n) :: rest => if p = place then some n else lookup place rest

/-- The node at a place. The root is always a folder. -/
def Node.at? (nodes : List (Place × Node)) : Place → Option Node
  | [] => some .folder
  | name :: place => lookup (name :: place) nodes

/-- What lies somewhere lies in a folder. -/
structure Tree where
  nodes : List (Place × Node)
  closed : ∀ place name, Node.at? nodes (place ++ [name]) ≠ none →
    Node.at? nodes place = some .folder
  deriving DecidableEq, Repr

namespace Tree

def node? (t : Tree) (place : Place) : Option Node := Node.at? t.nodes place

@[simp] theorem node?_nil (t : Tree) : t.node? [] = some .folder := rfl

theorem node?_eq_lookup (t : Tree) {place : Place} (h : place ≠ []) :
    t.node? place = Node.lookup place t.nodes := by
  cases place with
  | nil => exact absurd rfl h
  | cons name place => rfl

def empty : Tree where
  nodes := []
  closed := by
    intro place name h
    cases place <;> exact absurd rfl h

theorem node?_of_append {t : Tree} {place : Place} {name : Text}
    (h : t.node? (place ++ [name]) ≠ none) : t.node? place = some .folder :=
  t.closed place name h

theorem node?_dropLast {t : Tree} {place : Place} (h : t.node? place ≠ none) :
    t.node? place.dropLast = some .folder := by
  rcases place.eq_nil_or_concat with rfl | ⟨front, name, rfl⟩
  · rfl
  · rw [List.concat_eq_append] at h ⊢
    rw [List.dropLast_concat]
    exact node?_of_append h

def putIn (place : Place) (node : Node) : List (Place × Node) → List (Place × Node)
  | [] => [(place, node)]
  | (p, n) :: rest => if p = place then (place, node) :: rest else (p, n) :: putIn place node rest

theorem lookup_putIn (place other : Place) (node : Node) (nodes : List (Place × Node)) :
    Node.lookup other (putIn place node nodes) =
      if other = place then some node else Node.lookup other nodes := by
  induction nodes with
  | nil => simp only [putIn, Node.lookup, eq_comm]
  | cons entry rest ih =>
      obtain ⟨p, n⟩ := entry
      by_cases hp : p = place
      · subst hp
        simp only [putIn, Node.lookup, if_pos]
        by_cases ho : other = p
        · simp [ho]
        · simp [ho, Ne.symm ho]
      · simp only [putIn, if_neg hp, Node.lookup, ih]
        by_cases ho : p = other
        · subst ho
          simp [hp]
        · simp [ho]

theorem at?_putIn {place : Place} (h : place ≠ []) (other : Place) (node : Node)
    (nodes : List (Place × Node)) :
    Node.at? (putIn place node nodes) other =
      if other = place then some node else Node.at? nodes other := by
  cases other with
  | nil => simp [Node.at?, h.symm]
  | cons name other => exact lookup_putIn place (name :: other) node nodes

/-- Puts a node into a folder, over anything but another folder. -/
def put (t : Tree) (place : Place) (node : Node)
    (inFolder : t.node? place.dropLast = some .folder) (free : t.node? place ≠ some .folder) :
    Tree where
  nodes := putIn place node t.nodes
  closed := by
    have hne : place ≠ [] := by
      rintro rfl
      exact free rfl
    intro other name h
    rw [at?_putIn hne] at h ⊢
    have hother : Node.at? t.nodes other = some .folder := by
      by_cases heq : other ++ [name] = place
      · subst heq
        simpa [node?] using inFolder
      · rw [if_neg heq] at h
        exact t.closed other name h
    rw [if_neg (by rintro rfl; exact free hother)]
    exact hother

theorem node?_put (t : Tree) {place : Place} {node : Node} (inFolder free) (other : Place) :
    (t.put place node inFolder free).node? other =
      if other = place then some node else t.node? other := by
  refine at?_putIn ?_ other node t.nodes
  rintro rfl
  exact free rfl

def isUnder (root place : Place) : Bool := root.isPrefixOf place

theorem isUnder_iff {root place : Place} : isUnder root place = true ↔ root <+: place :=
  List.isPrefixOf_iff_prefix

theorem lookup_filter (keep : Place → Bool) (place : Place) (nodes : List (Place × Node)) :
    Node.lookup place (nodes.filter fun e => keep e.1) =
      if keep place then Node.lookup place nodes else none := by
  induction nodes with
  | nil => simp [Node.lookup]
  | cons entry rest ih =>
      obtain ⟨p, n⟩ := entry
      by_cases hk : keep p = true
      · rw [List.filter_cons_of_pos (by exact hk)]
        by_cases hp : p = place
        · subst hp
          simp [Node.lookup, hk]
        · simpa [Node.lookup, hp] using ih
      · rw [List.filter_cons_of_neg (by exact hk), ih]
        by_cases hp : p = place
        · subst hp
          simp [hk]
        · simp [Node.lookup, hp]

/-- The tree of the nodes at the root and at the places that are kept; of a place that is kept all
that leads to it must be kept. -/
def restrict (t : Tree) (keep : Place → Bool)
    (hkeep : ∀ place name, keep (place ++ [name]) = true → place ≠ [] → keep place = true) :
    Tree where
  nodes := t.nodes.filter fun e => keep e.1
  closed := by
    intro place name h
    cases place with
    | nil => rfl
    | cons first place =>
        have hlook := lookup_filter keep (first :: place ++ [name]) t.nodes
        change Node.at? _ (first :: place ++ [name]) = _ at hlook
        rw [hlook] at h
        by_cases hk : keep (first :: place ++ [name]) = true
        · rw [if_pos hk] at h
          have hfolder := t.closed (first :: place) name h
          change Node.lookup (first :: place) _ = _
          rw [lookup_filter, if_pos (hkeep _ _ hk (by simp))]
          exact hfolder
        · rw [if_neg hk] at h
          exact absurd rfl h

theorem node?_restrict (t : Tree) (keep : Place → Bool) (hkeep) {place : Place} (h : place ≠ []) :
    (t.restrict keep hkeep).node? place = if keep place then t.node? place else none := by
  rw [node?_eq_lookup _ h, node?_eq_lookup _ h]
  exact lookup_filter keep place t.nodes

def erase (t : Tree) (place : Place) : Tree :=
  t.restrict (fun other => !isUnder place other) fun other name h _ => by
    simp only [Bool.not_eq_true', ← Bool.not_eq_true, isUnder_iff] at h ⊢
    exact fun hp => h (hp.trans (List.prefix_append ..))

def eraseBelow (t : Tree) (root : Place) : Tree :=
  t.restrict (fun place => place = root || !isUnder root place) fun other name h _ => by
    simp only [Bool.or_eq_true, decide_eq_true_eq, Bool.not_eq_true', ← Bool.not_eq_true,
      isUnder_iff] at h ⊢
    rcases h with rfl | h
    · refine .inr fun hp => ?_
      have hlength := hp.length_le
      simp only [List.length_append, List.length_singleton] at hlength
      omega
    · exact .inr fun hp => h (hp.trans (List.prefix_append ..))

/-- The nodes below a place in the order of their places. -/
def below (t : Tree) (root : Place) : List (Place × Node) :=
  (t.nodes.filter fun e => e.1 ≠ root && isUnder root e.1).mergeSort fun a b => Place.le a.1 b.1

def nameLimit : Nat := 255

def pathLimit : Nat := 4095

/-- How many links are followed for one path. -/
def linkLimit : Nat := 40

/-- The name that leads back up. -/
def twoDots : Text := ".."

/-- Follows names from a folder on. A link on the way is followed by `jump`, the last one only if
`toEnd` says so; the last name need not be there. -/
def step (jump : Place → List Text → Except FileFault Place) (t : Tree) (toEnd : Bool) :
    Place → List Text → Except FileFault Place
  | here, [] => .ok here
  | here, name :: rest =>
      if name = twoDots then step jump t toEnd here.dropLast rest
      else if nameLimit < (FileName.bytes name).length then .error .nameTooLong
      else
        let place := here ++ [FileName.settled name]
        match t.node? place, rest with
        | none, [] => .ok place
        | none, _ :: _ => .error .notFound
        | some .folder, _ => step jump t toEnd place rest
        | some (.file _), [] => .ok place
        | some (.file _), _ :: _ => .error .notFolder
        | some (.link target), rest =>
            if rest.isEmpty && !toEnd then .ok place
            else
              let start := match target.anchor with
                | .here => here
                | _ => []
              jump start (target.parts ++ rest)

def walk (t : Tree) (toEnd : Bool) : Nat → Place → List Text → Except FileFault Place
  | 0 => fun _ _ => .error .linkLoop
  | n + 1 => step (walk t toEnd n) t toEnd

theorem folder_of_step {jump : Place → List Text → Except FileFault Place} {t : Tree}
    {toEnd : Bool}
    (hjump : ∀ here names place, t.node? here = some .folder → jump here names = .ok place →
      t.node? place.dropLast = some .folder) (names : List Text) :
    ∀ here place, t.node? here = some .folder → step jump t toEnd here names = .ok place →
      t.node? place.dropLast = some .folder := by
  induction names with
  | nil =>
      intro here place hhere h
      simp only [step, Except.ok.injEq] at h
      subst h
      exact node?_dropLast (by simp [hhere])
  | cons name rest ih =>
      intro here place hhere h
      have hplace : t.node? (here ++ [FileName.settled name]).dropLast = some .folder := by
        rwa [List.dropLast_concat]
      rw [step] at h
      split at h
      · exact ih _ _ (node?_dropLast (by simp [hhere])) h
      · split at h
        · simp at h
        · dsimp only at h
          split at h
          next => simp only [Except.ok.injEq] at h; exact h ▸ hplace
          next => simp at h
          next hn => exact ih _ _ hn h
          next => simp only [Except.ok.injEq] at h; exact h ▸ hplace
          next => simp at h
          next target _ =>
            split at h
            · simp only [Except.ok.injEq] at h
              exact h ▸ hplace
            · refine hjump _ _ _ ?_ h
              split
              · exact hhere
              · rfl

theorem folder_of_walk {t : Tree} {toEnd : Bool} (n : Nat) :
    ∀ here names place, t.node? here = some .folder → walk t toEnd n here names = .ok place →
      t.node? place.dropLast = some .folder := by
  induction n with
  | zero => intro here names place _ h; simp [walk] at h
  | succ n ih => exact fun here names place => folder_of_step ih names here place

/-- The place that a path names; a path without an anchor starts at the root, too. -/
def locate (t : Tree) (toEnd : Bool) (p : Path) : Except FileFault Place :=
  if pathLimit < (FileName.bytes p.text).length then .error .nameTooLong
  else walk t toEnd (linkLimit + 1) [] p.parts

theorem folder_of_locate {t : Tree} {toEnd : Bool} {p : Path} {place : Place}
    (h : t.locate toEnd p = .ok place) : t.node? place.dropLast = some .folder := by
  unfold locate at h
  split at h
  · simp at h
  · exact folder_of_walk _ _ _ _ rfl h

def find (t : Tree) (p : Path) : Except FileFault Node := do
  match t.node? (← t.locate true p) with
  | some node => return node
  | none => throw .notFound

def read (t : Tree) (p : Path) : Except FileFault Bytes := do
  match ← t.find p with
  | .file content => return content
  | .folder => throw .isFolder
  | .link _ => throw .notFound

def write (t : Tree) (p : Path) (content : Bytes) : Except FileFault Tree :=
  match h : t.locate true p with
  | .error fault => .error fault
  | .ok place =>
      if free : t.node? place = some .folder then .error .isFolder
      else .ok (t.put place (.file content) (folder_of_locate h) free)

def make (t : Tree) (p : Path) (node : Node) : Except FileFault Tree :=
  match h : t.locate false p with
  | .error fault => .error fault
  | .ok place =>
      match free : t.node? place with
      | some _ => .error .alreadyThere
      | none => .ok (t.put place node (folder_of_locate h) (by simp [free]))

def makeFolder (t : Tree) (p : Path) : Except FileFault Tree := t.make p .folder

def makeLink (t : Tree) (target p : Path) : Except FileFault Tree := t.make p (.link target)

def remove (t : Tree) (p : Path) : Except FileFault Tree := do
  let place ← t.locate false p
  match t.node? place with
  | some .folder => throw .isFolder
  | some _ => return t.erase place
  | none => throw .notFound

/-- Whether a path names a folder. What stands in the way of the path is no folder, but a name that is
too long is an error. -/
def isFolder (t : Tree) (p : Path) : Except FileFault Bool :=
  match t.find p with
  | .ok .folder => .ok true
  | .ok _ => .ok false
  | .error .nameTooLong => .error .nameTooLong
  | .error _ => .ok false

def hasFolder (t : Tree) (p : Path) : Bool :=
  match t.find p with
  | .ok .folder => true
  | _ => false

/-- Whether a path names anything; a name that is too long is an error. -/
def exists? (t : Tree) (p : Path) : Except FileFault Bool :=
  match t.find p with
  | .ok _ => .ok true
  | .error .nameTooLong => .error .nameTooLong
  | .error _ => .ok false

end Tree

end RemoteModel
