import RemoteModel.Proofs.Json.Bare
import RemoteModel.Proofs.Json.Steps

/-!
What reading a value takes of a text. It is a piece at the front, and the piece alone decides what is read:
with a budget of twice its length it is read again in front of the rune that followed it, whatever stands
behind that rune.
-/

namespace RemoteModel.Json

/-! ### Blanks -/

theorem isSpace_of_skipSpace {t rest : Text} {r : Rune} (h : skipSpace t = r :: rest) :
    isSpace r = false := by
  have hhead := List.head?_dropWhile_not isSpace t
  unfold skipSpace at h
  rw [h] at hhead
  exact hhead

theorem length_skipSpace_le (t : Text) : (skipSpace t).length ≤ t.length :=
  (List.dropWhile_suffix isSpace).length_le

/-- Blanks are skipped in front of anything that does not start with one. -/
theorem skipSpace_blanks (t : Text) : ∃ blanks : Text, t = blanks ++ skipSpace t ∧
    (∀ r ∈ blanks, isSpace r = true) ∧ ∀ y, skipSpace y = y → skipSpace (blanks ++ y) = y := by
  have hblank : ∀ r ∈ t.takeWhile isSpace, isSpace r = true := fun r hr => List.mem_takeWhile_imp hr
  refine ⟨t.takeWhile isSpace, List.takeWhile_append_dropWhile.symm, hblank, fun y hy => ?_⟩
  exact (List.dropWhile_append_of_pos hblank).trans hy

/-- What is met behind blanks is met there whatever follows it. -/
theorem skipSpace_piece {t piece rest : Text} (hpiece : piece ≠ []) (h : skipSpace t = piece ++ rest) :
    ∃ blanks, t = blanks ++ (piece ++ rest) ∧
      ∀ rest', skipSpace (blanks ++ (piece ++ rest')) = piece ++ rest' := by
  obtain ⟨blanks, ht, -, hskip⟩ := skipSpace_blanks t
  obtain ⟨r, piece, rfl⟩ := List.exists_cons_of_ne_nil hpiece
  rw [h] at ht
  exact ⟨blanks, ht, fun rest' => hskip _ (skipSpace_cons (isSpace_of_skipSpace h) _)⟩

theorem ends_of_isSpace {r : Rune} (h : isSpace r = true) : Ends r := by
  simp only [isSpace, Bool.or_eq_true, decide_eq_true_eq] at h
  rcases h with ((rfl | rfl) | rfl) | rfl <;> decide

/-- A text in which a rune that ends values is met behind blanks starts with a rune that ends values. -/
theorem ends_of_skipSpace {t rest : Text} {r : Rune} (hr : Ends r) (h : skipSpace t = r :: rest) :
    ∃ blanks e, Ends e ∧ t = blanks ++ r :: rest ∧ ∀ rest', skipSpace (blanks ++ r :: rest') = r :: rest' ∧
      ∃ z, blanks ++ r :: rest' = e :: z := by
  obtain ⟨blanks, ht, hblank, hskip⟩ := skipSpace_blanks t
  have hmet := fun rest' => hskip _ (skipSpace_cons (isSpace_of_skipSpace h) rest')
  rw [h] at ht
  cases blanks with
  | nil => exact ⟨[], r, hr, ht, fun rest' => ⟨hmet rest', rest', rfl⟩⟩
  | cons e blanks =>
      have he := ends_of_isSpace (hblank e List.mem_cons_self)
      exact ⟨e :: blanks, e, he, ht, fun rest' => ⟨hmet rest', _, rfl⟩⟩

/-! ### Values, items and fields -/

/-- What was read in front of a rune that ends values is a piece of the text: it is read in front of that
rune with any budget of at least twice its length, whatever stands behind the rune. -/
def Consumes {β : Type} (Reads : Nat → Text → β → Text → Prop) (n : Nat) : Prop :=
  ∀ t b e z, Reads n t b (e :: z) → Ends e → ∃ piece, piece ≠ [] ∧ t = piece ++ e :: z ∧
    ∀ m, 2 * piece.length ≤ m → ∀ z', Reads m (piece ++ e :: z') b (e :: z')

/-- A list closes itself, so anything may stand behind it. -/
def ListConsumes {β : Type} (Reads : Nat → List β → Text → Json → Text → Prop) (n : Nat) : Prop :=
  ∀ acc t v rest, Reads n acc t v rest → ∃ piece, piece ≠ [] ∧ t = piece ++ rest ∧
    ∀ m, 2 * piece.length ≤ m → ∀ rest', Reads m acc (piece ++ rest') v rest'

/-- An entry together with the rune that is met behind it. -/
theorem Consumes.met {β : Type} {Reads : Nat → Text → β → Text → Prop} {n : Nat}
    (hconsumes : Consumes Reads n) {t mid rest : Text} {b : β} {r : Rune} (hread : Reads n t b mid)
    (hr : Ends r) (hmet : skipSpace mid = r :: rest) : ∃ front, t = front ++ r :: rest ∧
      ∀ m, 2 * front.length ≤ m → ∀ rest', ∃ mid',
        Reads m (front ++ r :: rest') b mid' ∧ skipSpace mid' = r :: rest' := by
  obtain ⟨blanks, e, he, rfl, hblanks⟩ := ends_of_skipSpace hr hmet
  obtain ⟨z, hz⟩ := (hblanks rest).2
  rw [hz] at hread
  obtain ⟨piece, -, rfl, hpiece⟩ := hconsumes _ _ _ _ hread he
  refine ⟨piece ++ blanks, by rw [List.append_assoc, hz], fun m hm rest' => ?_⟩
  obtain ⟨hskip, z', hz'⟩ := hblanks rest'
  rw [List.length_append] at hm
  refine ⟨blanks ++ r :: rest', ?_, hskip⟩
  rw [List.append_assoc, hz']
  exact hpiece m (by omega) z'

theorem ListReader.consumes_succ {β : Type} {Entry : Nat → Text → β → Text → Prop} {close : Rune}
    {whole : List β → Json} {Reads : Nat → List β → Text → Json → Text → Prop}
    (hreader : ListReader Entry close whole Reads) (hclose : Ends close) {n : Nat}
    (hentry : Consumes Entry n) (hlist : ListConsumes Reads n) : ListConsumes Reads (n + 1) := by
  intro acc t v rest h
  cases hreader.step.mp h with
  | last hread hend =>
      obtain ⟨front, rfl, hfront⟩ := hentry.met hread hclose hend
      refine ⟨front ++ [close], by simp, by simp, fun m hm rest' => ?_⟩
      rw [List.length_append, List.length_singleton] at hm
      obtain ⟨m, rfl⟩ : ∃ k, m = k + 1 := ⟨m - 1, by omega⟩
      obtain ⟨mid, hmid, hend'⟩ := hfront m (by omega) rest'
      rw [List.append_assoc]
      exact hreader.step.mpr (.last hmid hend')
  | more hread hcomma hmore =>
      obtain ⟨front, rfl, hfront⟩ := hentry.met hread (by decide) hcomma
      obtain ⟨piece, hne, hbehind, hpiece⟩ := hlist _ _ _ _ hmore
      obtain ⟨blanks, rfl, hskip⟩ := skipSpace_piece hne hbehind
      refine ⟨front ++ .scalar ',' :: (blanks ++ piece), by simp, by simp, fun m hm rest' => ?_⟩
      simp only [List.length_append, List.length_cons] at hm
      obtain ⟨m, rfl⟩ : ∃ k, m = k + 1 := ⟨m - 1, by omega⟩
      obtain ⟨mid, hmid, hcomma'⟩ := hfront m (by omega) (blanks ++ (piece ++ rest'))
      have hlast := hpiece m (by omega) rest'
      rw [← hskip rest'] at hlast
      rw [List.append_assoc, List.cons_append, List.append_assoc]
      exact hreader.step.mpr (.more hmid hcomma' hlast)

/-- A name and the colon behind it. -/
theorem name_piece {body name mid tail : Text} (hname : scanQuoted body = .ok (name, mid))
    (hcolon : skipSpace mid = .scalar ':' :: tail) : ∃ front, body = front ++ .scalar ':' :: tail ∧
      ∀ tail', ∃ mid', scanQuoted (front ++ .scalar ':' :: tail') = .ok (name, mid') ∧
        skipSpace mid' = .scalar ':' :: tail' := by
  obtain ⟨spelling, rfl, hspells⟩ := spells_of_scanQuoted hname
  have hpiece : skipSpace mid = [.scalar ':'] ++ tail := hcolon
  obtain ⟨blanks, rfl, hskip⟩ := skipSpace_piece (List.cons_ne_nil _ _) hpiece
  refine ⟨spelling ++ .scalar '"' :: blanks, by simp, fun tail' => ⟨_, ?_, hskip tail'⟩⟩
  rw [List.append_assoc]
  exact hspells.scanQuoted _

theorem fieldConsumes {n : Nat} (hvalue : Consumes ReadsValue n) : Consumes ReadsField n := by
  intro t f e z h he
  obtain ⟨hname, hcolon, hread⟩ := h
  obtain ⟨front, rfl, hfront⟩ := name_piece hname hcolon
  obtain ⟨piece, hne, hbehind, hpiece⟩ := hvalue _ _ _ _ hread he
  obtain ⟨blanks, rfl, hskip⟩ := skipSpace_piece hne hbehind
  refine ⟨.scalar '"' :: (front ++ .scalar ':' :: (blanks ++ piece)), by simp, by simp,
    fun m hm z' => ?_⟩
  simp only [List.length_append, List.length_cons] at hm
  obtain ⟨mid, hname', hcolon'⟩ := hfront (blanks ++ (piece ++ e :: z'))
  have hvalue' := hpiece m (by omega) z'
  rw [← hskip (e :: z')] at hvalue'
  rw [List.cons_append, List.append_assoc, List.cons_append, List.append_assoc]
  exact .intro hname' hcolon' hvalue'

/-- A bracket that is closed at once. -/
theorem closed_piece {close : Rune} {t rest : Text} (hclose : skipSpace t = close :: rest) :
    ∃ inside, t = inside ++ rest ∧ ∀ rest', skipSpace (inside ++ rest') = close :: rest' := by
  have hpiece : skipSpace t = [close] ++ rest := hclose
  obtain ⟨blanks, rfl, hskip⟩ := skipSpace_piece (List.cons_ne_nil _ _) hpiece
  refine ⟨blanks ++ [close], by simp, fun rest' => ?_⟩
  rw [List.append_assoc]
  exact hskip rest'

/-- What is behind a bracket that is not closed at once. -/
theorem ListConsumes.opened {β : Type} {Reads : Nat → List β → Text → Json → Text → Prop} {n : Nat}
    (hlist : ListConsumes Reads n) {close : Rune} {t rest : Text} {v : Json}
    (hopen : ∀ tail, skipSpace t ≠ close :: tail) (hread : Reads n [] (skipSpace t) v rest) :
    ∃ inside, t = inside ++ rest ∧ ∀ m, 2 * inside.length ≤ m → ∀ rest',
      (∀ tail, skipSpace (inside ++ rest') ≠ close :: tail) ∧
        Reads m [] (skipSpace (inside ++ rest')) v rest' := by
  obtain ⟨piece, hne, hinside, hpiece⟩ := hlist _ _ _ _ hread
  obtain ⟨blanks, rfl, hskip⟩ := skipSpace_piece hne hinside
  obtain ⟨r, piece, rfl⟩ := List.exists_cons_of_ne_nil hne
  refine ⟨blanks ++ r :: piece, by simp, fun m hm rest' => ?_⟩
  rw [List.length_append] at hm
  rw [List.append_assoc, hskip rest']
  refine ⟨fun tail heq => hopen (piece ++ rest) ?_, hpiece m (by omega) rest'⟩
  rw [hinside, ← (List.cons.inj heq).1, List.cons_append]

theorem valueConsumes_succ {n : Nat} (hitems : ListConsumes ReadsItems n)
    (hfields : ListConsumes ReadsFields n) : Consumes ReadsValue (n + 1) := by
  intro t v e z h he
  -- a piece takes at least one rune, so its budget leaves one step for the value itself
  have hsplit {m : Nat} {r : Rune} {piece : Text} (hm : 2 * (r :: piece).length ≤ m) :
      ∃ k, m = k + 1 ∧ 2 * piece.length ≤ k := by
    rw [List.length_cons] at hm
    exact ⟨m - 1, by omega, by omega⟩
  cases readsValue_iff.mp h with
  | quoted hscan =>
      obtain ⟨body, rfl, hspells⟩ := spells_of_scanQuoted hscan
      refine ⟨.scalar '"' :: (body ++ [.scalar '"']), by simp, by simp, fun m hm z' => ?_⟩
      obtain ⟨m, rfl, -⟩ := hsplit hm
      rw [List.cons_append, List.append_assoc]
      exact readsValue_iff.mpr (.quoted (hspells.scanQuoted _))
  | noItems hclose =>
      obtain ⟨inside, rfl, hinside⟩ := closed_piece hclose
      refine ⟨.scalar '[' :: inside, List.cons_ne_nil _ _, rfl, fun m hm z' => ?_⟩
      obtain ⟨m, rfl, -⟩ := hsplit hm
      exact readsValue_iff.mpr (.noItems (hinside _))
  | items hopen hread =>
      obtain ⟨inside, rfl, hinside⟩ := hitems.opened hopen hread
      refine ⟨.scalar '[' :: inside, List.cons_ne_nil _ _, rfl, fun m hm z' => ?_⟩
      obtain ⟨m, rfl, hinner⟩ := hsplit hm
      obtain ⟨hopen', hread'⟩ := hinside m hinner (e :: z')
      exact readsValue_iff.mpr (.items hopen' hread')
  | noFields hclose =>
      obtain ⟨inside, rfl, hinside⟩ := closed_piece hclose
      refine ⟨.scalar '\x7b' :: inside, List.cons_ne_nil _ _, rfl, fun m hm z' => ?_⟩
      obtain ⟨m, rfl, -⟩ := hsplit hm
      exact readsValue_iff.mpr (.noFields (hinside _))
  | fields hopen hread =>
      obtain ⟨inside, rfl, hinside⟩ := hfields.opened hopen hread
      refine ⟨.scalar '\x7b' :: inside, List.cons_ne_nil _ _, rfl, fun m hm z' => ?_⟩
      obtain ⟨m, rfl, hinner⟩ := hsplit hm
      obtain ⟨hopen', hread'⟩ := hinside m hinner (e :: z')
      exact readsValue_iff.mpr (.fields hopen' hread')
  | bare hbare hscan =>
      obtain ⟨piece, hne, rfl, hpiece⟩ := scanScalar_piece hscan he
      obtain ⟨r, piece, rfl⟩ := List.exists_cons_of_ne_nil hne
      refine ⟨r :: piece, hne, rfl, fun m hm z' => ?_⟩
      obtain ⟨m, rfl, -⟩ := hsplit hm
      exact readsValue_iff.mpr (.bare (hbare.of_head _) (hpiece z'))

theorem consumes (n : Nat) : Consumes ReadsValue n ∧ ListConsumes ReadsItems n ∧
    ListConsumes ReadsFields n := by
  induction n with
  | zero =>
      refine ⟨fun t v e z h => ?_, fun acc t v rest h => ?_, fun acc t v rest h => ?_⟩
      · cases h
      · cases h
      · cases h
  | succ n ih =>
      obtain ⟨hvalue, hitems, hfields⟩ := ih
      exact ⟨valueConsumes_succ hitems hfields, itemsReader.consumes_succ (by decide) hvalue hitems,
        fieldsReader.consumes_succ (by decide) (fieldConsumes hvalue) hfields⟩

end RemoteModel.Json
