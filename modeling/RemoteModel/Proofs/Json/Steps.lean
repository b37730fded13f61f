import RemoteModel.Proofs.Json.Quoted
import RemoteModel.Proofs.Results

/-!
The steps of reading a document: what one value, one item and one field is read as, in terms of what is
read inside it. A budget that suffices may be larger, and what stands before an item or a field in its
list does not matter to the ones after it.
-/

namespace RemoteModel.Json

/-- A text that starts with neither a quote nor a bracket. -/
def Bare (t : Text) : Prop :=
  ∀ tail, t ≠ .scalar '"' :: tail ∧ t ≠ .scalar '[' :: tail ∧ t ≠ .scalar '\x7b' :: tail

theorem Bare.of_head {r : Rune} {t : Text} (h : Bare (r :: t)) (t' : Text) : Bare (r :: t') :=
  fun _ => ⟨fun heq => (h t).1 (by rw [(List.cons.inj heq).1]),
    fun heq => (h t).2.1 (by rw [(List.cons.inj heq).1]),
    fun heq => (h t).2.2 (by rw [(List.cons.inj heq).1])⟩

def ReadsValue (n : Nat) (t : Text) (v : Json) (rest : Text) : Prop := scanValue n t = .ok (v, rest)

def ReadsItems (n : Nat) (acc : List Json) (t : Text) (v : Json) (rest : Text) : Prop :=
  scanItems n acc t = .ok (v, rest)

def ReadsFields (n : Nat) (acc : List (Text × Json)) (t : Text) (v : Json) (rest : Text) : Prop :=
  scanFields n acc t = .ok (v, rest)

inductive ValueStep (n : Nat) : Text → Json → Text → Prop
  | quoted {body s rest : Text} : scanQuoted body = .ok (s, rest) →
      ValueStep n (.scalar '"' :: body) (.str s) rest
  | noItems {t rest : Text} : skipSpace t = .scalar ']' :: rest →
      ValueStep n (.scalar '[' :: t) (.arr []) rest
  | items {t rest : Text} {v : Json} : (∀ tail, skipSpace t ≠ .scalar ']' :: tail) →
      ReadsItems n [] (skipSpace t) v rest → ValueStep n (.scalar '[' :: t) v rest
  | noFields {t rest : Text} : skipSpace t = .scalar '\x7d' :: rest →
      ValueStep n (.scalar '\x7b' :: t) (.obj []) rest
  | fields {t rest : Text} {v : Json} : (∀ tail, skipSpace t ≠ .scalar '\x7d' :: tail) →
      ReadsFields n [] (skipSpace t) v rest → ValueStep n (.scalar '\x7b' :: t) v rest
  | bare {t rest : Text} {v : Json} : Bare t → scanScalar t = .ok (v, rest) → ValueStep n t v rest

theorem readsValue_iff {n : Nat} {t rest : Text} {v : Json} :
    ReadsValue (n + 1) t v rest ↔ ValueStep n t v rest := by
  unfold ReadsValue
  constructor
  · intro h
    rw [scanValue.eq_def] at h
    dsimp only at h
    split at h
    next =>
      obtain ⟨⟨s, _⟩, hscan, h⟩ := ok_of_bind h
      cases h
      exact .quoted hscan
    next =>
      split at h
      next hclose =>
        cases h
        exact .noItems hclose
      next hopen => exact .items hopen h
    next =>
      split at h
      next hclose =>
        cases h
        exact .noFields hclose
      next hopen => exact .fields hopen h
    next hquote hitems hfields =>
      exact .bare (fun tail => ⟨hquote tail, hitems tail, hfields tail⟩) h
  · intro h
    cases h with
    | quoted hscan =>
        rw [scanValue, hscan]
        rfl
    | noItems hclose =>
        rw [scanValue, hclose]
        rfl
    | items hopen hscan =>
        rw [scanValue]
        split
        next hclose => exact absurd hclose (hopen _)
        next => exact hscan
    | noFields hclose =>
        rw [scanValue, hclose]
        rfl
    | fields hopen hscan =>
        rw [scanValue]
        split
        next hclose => exact absurd hclose (hopen _)
        next => exact hscan
    | bare hbare hscan =>
        rw [scanValue]
        · exact hscan
        · exact fun tail => (hbare tail).1
        · exact fun tail => (hbare tail).2.1
        · exact fun tail => (hbare tail).2.2

/-- A name, a colon and a value. -/
inductive ReadsField (n : Nat) : Text → Text × Json → Text → Prop
  | intro {body name mid tail rest : Text} {v : Json} : scanQuoted body = .ok (name, mid) →
      skipSpace mid = .scalar ':' :: tail → ReadsValue n (skipSpace tail) v rest →
      ReadsField n (.scalar '"' :: body) (name, v) rest

/-- How a list is read from an entry on: the entry and what closes the list, or the entry, a comma and what
is behind it. -/
inductive ListStep {β : Type} (Entry : Text → β → Text → Prop) (close : Rune) (whole : List β → Json)
    (Behind : List β → Text → Json → Text → Prop) (acc : List β) : Text → Json → Text → Prop
  | last {t mid rest : Text} {b : β} : Entry t b mid → skipSpace mid = close :: rest →
      ListStep Entry close whole Behind acc t (whole (b :: acc).reverse) rest
  | more {t mid tail rest : Text} {b : β} {v : Json} : Entry t b mid →
      skipSpace mid = .scalar ',' :: tail → Behind (b :: acc) (skipSpace tail) v rest →
      ListStep Entry close whole Behind acc t v rest

/-- Items and fields are read in the same way. -/
structure ListReader {β : Type} (Entry : Nat → Text → β → Text → Prop) (close : Rune)
    (whole : List β → Json) (Reads : Nat → List β → Text → Json → Text → Prop) : Prop where
  step {n : Nat} {acc : List β} {t rest : Text} {v : Json} :
    Reads (n + 1) acc t v rest ↔ ListStep (Entry n) close whole (Reads n) acc t v rest
  unread (acc : List β) (t : Text) (v : Json) (rest : Text) : ¬Reads 0 acc t v rest

theorem itemsReader : ListReader ReadsValue (.scalar ']') .arr ReadsItems where
  step {n acc t rest v} := by
    unfold ReadsItems
    rw [scanItems]
    constructor
    · intro h
      obtain ⟨⟨w, mid⟩, hvalue, h⟩ := ok_of_bind h
      dsimp only at h
      split at h
      next hclose =>
        cases h
        exact .last hvalue hclose
      next hcomma => exact .more hvalue hcomma h
      next => cases h
    · intro h
      cases h with
      | last hvalue hclose =>
          rw [hvalue]
          dsimp only [bind, Except.bind]
          rw [hclose]
          rfl
      | more hvalue hcomma hmore =>
          rw [hvalue]
          dsimp only [bind, Except.bind]
          rw [hcomma]
          exact hmore
  unread acc t v rest h := by cases h

/-- Of fields with one name the last is kept, in the place of the first. -/
def objectOf (fields : List (Text × Json)) : Json := .obj (Entries.ofPairs fields)

theorem fieldsReader : ListReader ReadsField (.scalar '\x7d') objectOf ReadsFields where
  step {n acc t rest v} := by
    unfold ReadsFields
    constructor
    · intro h
      rw [scanFields.eq_def] at h
      dsimp only at h
      split at h
      next =>
        obtain ⟨⟨name, mid⟩, hname, h⟩ := ok_of_bind h
        dsimp only at h
        split at h
        next hcolon =>
          obtain ⟨⟨w, after⟩, hvalue, h⟩ := ok_of_bind h
          have hfield := ReadsField.intro hname hcolon hvalue
          dsimp only at h
          split at h
          next hclose =>
            cases h
            exact .last hfield hclose
          next hcomma => exact .more hfield hcomma h
          next => cases h
        next => cases h
      next => cases h
    · intro h
      cases h with
      | last hfield hclose =>
          obtain ⟨hname, hcolon, hvalue⟩ := hfield
          unfold ReadsValue at hvalue
          rw [scanFields]
          simp only [hname, hcolon, hvalue, hclose, bind, Except.bind]
          rfl
      | more hfield hcomma hmore =>
          obtain ⟨hname, hcolon, hvalue⟩ := hfield
          unfold ReadsValue at hvalue
          rw [scanFields]
          simp only [hname, hcolon, hvalue, hcomma, bind, Except.bind]
          exact hmore
  unread acc t v rest h := by cases h

/-- What was read is read with every larger budget. -/
def Settled {β : Type} (Reads : Nat → Text → β → Text → Prop) (n : Nat) : Prop :=
  ∀ t b rest, Reads n t b rest → ∀ m, n ≤ m → Reads m t b rest

/-- Entries that were read are read with every larger budget and behind any other entries. -/
def ListSettled {β : Type} (whole : List β → Json) (Reads : Nat → List β → Text → Json → Text → Prop)
    (n : Nat) : Prop :=
  ∀ acc t v rest, Reads n acc t v rest → ∃ bs, v = whole (acc.reverse ++ bs) ∧
    ∀ acc' m, n ≤ m → Reads m acc' t (whole (acc'.reverse ++ bs)) rest

namespace ListReader

variable {β : Type} {Entry : Nat → Text → β → Text → Prop} {close : Rune} {whole : List β → Json}
  {Reads : Nat → List β → Text → Json → Text → Prop}

theorem settled_zero (hreader : ListReader Entry close whole Reads) : ListSettled whole Reads 0 :=
  fun acc t v rest h => absurd h (hreader.unread acc t v rest)

theorem settled_succ (hreader : ListReader Entry close whole Reads) {n : Nat}
    (hentry : Settled Entry n) (hlist : ListSettled whole Reads n) :
    ListSettled whole Reads (n + 1) := by
  intro acc t v rest h
  cases hreader.step.mp h with
  | @last _ _ b hread hclose =>
      refine ⟨[b], by rw [List.reverse_cons], fun acc' m hm => ?_⟩
      obtain ⟨k, rfl⟩ := Nat.exists_eq_add_of_le' hm
      rw [← List.reverse_cons]
      exact hreader.step.mpr (.last (hentry _ _ _ hread (k + n) (Nat.le_add_left n k)) hclose)
  | @more _ _ _ b _ hread hcomma hmore =>
      obtain ⟨bs, rfl, hall⟩ := hlist _ _ _ _ hmore
      refine ⟨b :: bs, by rw [List.reverse_cons, List.append_assoc]; rfl, fun acc' m hm => ?_⟩
      obtain ⟨k, rfl⟩ := Nat.exists_eq_add_of_le' hm
      have hrest := hall (b :: acc') (k + n) (Nat.le_add_left n k)
      rw [List.reverse_cons, List.append_assoc] at hrest
      exact hreader.step.mpr (.more (hentry _ _ _ hread (k + n) (Nat.le_add_left n k)) hcomma hrest)

end ListReader

theorem fieldSettled {n : Nat} (hvalue : Settled ReadsValue n) : Settled ReadsField n := by
  intro t f rest h m hm
  obtain ⟨hname, hcolon, hread⟩ := h
  exact .intro hname hcolon (hvalue _ _ _ hread m hm)

theorem valueSettled_succ {n : Nat} (hitems : ListSettled .arr ReadsItems n)
    (hfields : ListSettled objectOf ReadsFields n) : Settled ReadsValue (n + 1) := by
  intro t v rest h m hm
  obtain ⟨k, rfl⟩ := Nat.exists_eq_add_of_le' hm
  refine readsValue_iff.mpr ?_
  cases readsValue_iff.mp h with
  | quoted hscan => exact .quoted hscan
  | noItems hclose => exact .noItems hclose
  | items hopen hread =>
      obtain ⟨items, rfl, hall⟩ := hitems _ _ _ _ hread
      exact .items hopen (hall [] (k + n) (Nat.le_add_left n k))
  | noFields hclose => exact .noFields hclose
  | fields hopen hread =>
      obtain ⟨fields, rfl, hall⟩ := hfields _ _ _ _ hread
      exact .fields hopen (hall [] (k + n) (Nat.le_add_left n k))
  | bare hbare hscan => exact .bare hbare hscan

theorem settled (n : Nat) : Settled ReadsValue n ∧ ListSettled .arr ReadsItems n ∧
    ListSettled objectOf ReadsFields n := by
  induction n with
  | zero =>
      refine ⟨fun t v rest h => ?_, itemsReader.settled_zero, fieldsReader.settled_zero⟩
      cases h
  | succ n ih =>
      obtain ⟨hvalue, hitems, hfields⟩ := ih
      exact ⟨valueSettled_succ hitems hfields, itemsReader.settled_succ hvalue hitems,
        fieldsReader.settled_succ (fieldSettled hvalue) hfields⟩

/-- A document is one value, with blanks around it and no mark of byte order in front. -/
theorem parse_iff {t : Text} {v : Json} : parse t = .ok v ↔
    (∀ tail, t ≠ .scalar '\uFEFF' :: tail) ∧
      ∃ rest, ReadsValue (2 * t.length + 1) (skipSpace t) v rest ∧ skipSpace rest = [] := by
  have hparse : parse t = .ok v ↔ scanDocument t = .ok v := by
    unfold parse
    cases scanDocument t <;> exact Iff.of_eq (by simp)
  rw [hparse]
  unfold scanDocument
  constructor
  · intro h
    split at h
    next => cases h
    next hmark =>
      obtain ⟨⟨w, rest⟩, hscan, h⟩ := ok_of_bind h
      dsimp only at h
      split at h
      next hend =>
        cases h
        exact ⟨hmark, rest, hscan, hend⟩
      next => cases h
  · rintro ⟨hmark, rest, hscan, hend⟩
    split
    next => exact absurd rfl (hmark _)
    next =>
      rw [hscan]
      dsimp only [bind, Except.bind]
      rw [hend]

end RemoteModel.Json
