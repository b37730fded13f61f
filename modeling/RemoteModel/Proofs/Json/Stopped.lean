import RemoteModel.Proofs.Json.Consumed

/-!
Where reading stops at a number that is too long. In front of the number stands a text that is read to its
end and ends where a value is due, and every text of that kind with such a number behind it stops there.
-/

namespace RemoteModel.Json

/-! ### How reading stops -/

/-- Reading stops where a value is due: there is none, or it is a number that is too long. -/
inductive Stop.AtValue : Stop → Prop
  | absent (left : Nat) : AtValue (.fault .value left)
  | tooLong (digits : Nat) : AtValue (.tooLong digits)

theorem unicodeStep_fault {t : Text} {what : Fault} {left : Nat} (h : unicodeStep t = .fault what left) :
    what = .unicodeEscape := by
  unfold unicodeStep at h
  split at h
  next =>
    split at h
    next =>
      cases h
      rfl
    next =>
      split at h
      next =>
        split at h
        next =>
          cases h
          rfl
        next => cases h
        next => cases h
      next => cases h
  next =>
    cases h
    rfl

theorem stringStep_fault {r : Rune} {rest : Text} {what : Fault} {left : Nat}
    (h : stringStep r rest = .fault what left) : what ≠ .value := by
  rintro rfl
  unfold stringStep at h
  split at h
  next => cases h
  next =>
    split at h
    next =>
      split at h
      next => cases h
      next => cases unicodeStep_fault h
      next => split at h <;> cases h
    next => split at h <;> cases h

theorem scanString_error {acc t : Text} {skip : Nat} {e : Stop}
    (h : scanString acc skip t = .error (some e)) : ¬e.AtValue := by
  induction t generalizing acc skip with
  | nil => cases h
  | cons r t ih =>
      cases skip with
      | succ k => exact ih h
      | zero =>
          rw [scanString] at h
          split at h
          next => cases h
          next => exact ih h
          next => cases h
          next hfault =>
            cases h
            intro hvalue
            cases hvalue
            exact stringStep_fault hfault rfl

theorem scanQuoted_error {body : Text} {e : Stop} (h : scanQuoted body = .error e) : ¬e.AtValue := by
  unfold scanQuoted at h
  split at h
  next => cases h
  next =>
    cases h
    exact nofun
  next hstop =>
    cases h
    exact scanString_error hstop

def StopsValue (n : Nat) (t : Text) (e : Stop) : Prop := scanValue n t = .error e

def StopsItems (n : Nat) (acc : List Json) (t : Text) (e : Stop) : Prop := scanItems n acc t = .error e

def StopsFields (n : Nat) (acc : List (Text × Json)) (t : Text) (e : Stop) : Prop :=
  scanFields n acc t = .error e

/-- How a value stops where a value is due: inside its bracket, or at once. -/
inductive ValueStop (n : Nat) : Text → Stop → Prop
  | items {t : Text} {e : Stop} : (∀ tail, skipSpace t ≠ .scalar ']' :: tail) →
      StopsItems n [] (skipSpace t) e → ValueStop n (.scalar '[' :: t) e
  | fields {t : Text} {e : Stop} : (∀ tail, skipSpace t ≠ .scalar '\x7d' :: tail) →
      StopsFields n [] (skipSpace t) e → ValueStop n (.scalar '\x7b' :: t) e
  | bare {t : Text} {e : Stop} : Bare t → scanScalar t = .error e → ValueStop n t e

theorem stopsValue_iff {n : Nat} {t : Text} {e : Stop} (he : e.AtValue) :
    StopsValue (n + 1) t e ↔ ValueStop n t e := by
  unfold StopsValue
  constructor
  · intro h
    rw [scanValue.eq_def] at h
    dsimp only at h
    split at h
    next =>
      rcases error_of_bind.mp h with hscan | ⟨_, _, hpure⟩
      · exact absurd he (scanQuoted_error hscan)
      · cases hpure
    next =>
      split at h
      next => cases h
      next hopen => exact .items hopen h
    next =>
      split at h
      next => cases h
      next hopen => exact .fields hopen h
    next hquote hitems hfields =>
      exact .bare (fun tail => ⟨hquote tail, hitems tail, hfields tail⟩) h
  · intro h
    cases h with
    | items hopen hscan =>
        rw [scanValue]
        split
        next hclose => exact absurd hclose (hopen _)
        next => exact hscan
    | fields hopen hscan =>
        rw [scanValue]
        split
        next hclose => exact absurd hclose (hopen _)
        next => exact hscan
    | bare hbare hscan =>
        rw [scanValue]
        · exact hscan
        · exact fun tail => (hbare tail).1
        · exact fun tail => (hbare tail).2.1
        · exact fun tail => (hbare tail).2.2

/-- A field whose value stops. -/
inductive StopsField (n : Nat) : Text → Stop → Prop
  | intro {body name mid tail : Text} {e : Stop} : scanQuoted body = .ok (name, mid) →
      skipSpace mid = .scalar ':' :: tail → StopsValue n (skipSpace tail) e →
      StopsField n (.scalar '"' :: body) e

/-- How a list stops where a value is due: in the entry it starts with, or behind that entry and a comma. -/
inductive ListStop {β : Type} (Entry : Text → β → Text → Prop) (EntryStops : Text → Stop → Prop)
    (Behind : List β → Text → Stop → Prop) (acc : List β) : Text → Stop → Prop
  | entry {t : Text} {e : Stop} : EntryStops t e → ListStop Entry EntryStops Behind acc t e
  | behind {t mid tail : Text} {b : β} {e : Stop} : Entry t b mid →
      skipSpace mid = .scalar ',' :: tail → Behind (b :: acc) (skipSpace tail) e →
      ListStop Entry EntryStops Behind acc t e

/-- Items and fields stop in the same way. -/
structure ListStopper {β : Type} (Entry : Nat → Text → β → Text → Prop)
    (EntryStops : Nat → Text → Stop → Prop) (Stops : Nat → List β → Text → Stop → Prop) : Prop where
  step {n : Nat} {acc : List β} {t : Text} {e : Stop} : e.AtValue →
    (Stops (n + 1) acc t e ↔ ListStop (Entry n) (EntryStops n) (Stops n) acc t e)

theorem itemsStopper : ListStopper ReadsValue StopsValue StopsItems where
  step {n acc t e} he := by
    unfold StopsItems
    rw [scanItems]
    constructor
    · intro h
      rcases error_of_bind.mp h with hvalue | ⟨⟨v, mid⟩, hvalue, h⟩
      · exact .entry hvalue
      · dsimp only at h
        split at h
        next => cases h
        next hcomma => exact .behind hvalue hcomma h
        next =>
          cases h
          cases he
    · intro h
      cases h with
      | entry hvalue =>
          rw [hvalue]
          rfl
      | behind hvalue hcomma hbehind =>
          rw [hvalue]
          dsimp only [bind, Except.bind]
          rw [hcomma]
          exact hbehind

theorem fieldsStopper : ListStopper ReadsField StopsField StopsFields where
  step {n acc t e} he := by
    unfold StopsFields
    constructor
    · intro h
      rw [scanFields.eq_def] at h
      dsimp only at h
      split at h
      next =>
        rcases error_of_bind.mp h with hname | ⟨⟨name, mid⟩, hname, h⟩
        · exact absurd he (scanQuoted_error hname)
        · dsimp only at h
          split at h
          next hcolon =>
            rcases error_of_bind.mp h with hvalue | ⟨⟨v, mid⟩, hvalue, h⟩
            · exact .entry (.intro hname hcolon hvalue)
            · dsimp only at h
              split at h
              next => cases h
              next hcomma => exact .behind (.intro hname hcolon hvalue) hcomma h
              next =>
                cases h
                cases he
          next =>
            cases h
            cases he
      next =>
        cases h
        cases he
    · intro h
      cases h with
      | entry hfield =>
          obtain ⟨hname, hcolon, hvalue⟩ := hfield
          unfold StopsValue at hvalue
          rw [scanFields]
          simp only [hname, hcolon, hvalue, bind, Except.bind]
      | behind hfield hcomma hbehind =>
          obtain ⟨hname, hcolon, hvalue⟩ := hfield
          unfold ReadsValue at hvalue
          rw [scanFields]
          simp only [hname, hcolon, hvalue, hcomma, bind, Except.bind]
          exact hbehind

/-! ### In front of a number -/

theorem scanScalar_absent {t : Text} {left : Nat} (h : scanScalar t = .error (.fault .value left)) :
    left = t.length := by
  unfold scanScalar at h
  split at h
  next => cases h
  next =>
    obtain ⟨_, body, negative, -, -, hscan⟩ := scanNumber_signed t
    rw [hscan] at h
    unfold scanUnsigned at h
    split at h
    next =>
      cases h
      rfl
    next =>
      dsimp only at h
      split at h
      next => split at h <;> cases h
      next => cases h

theorem Overlong.bare {n : Nat} {number : Text} (h : Overlong n number) : Bare number := by
  obtain ⟨r, rest, rfl, hr⟩ := h.head
  exact fun tail => ⟨fun heq => hr.ne (by decide) (List.cons.inj heq).1.symm,
    fun heq => hr.ne (by decide) (List.cons.inj heq).1.symm,
    fun heq => hr.ne (by decide) (List.cons.inj heq).1.symm⟩

/-- What is met in front of a number is met at the end of the text in front of it. -/
theorem skipSpace_eq_append {t front number : Text} (h : skipSpace t = front ++ number) :
    ∃ before, t = before ++ number ∧ skipSpace before = front := by
  obtain ⟨blanks, ht, -, hskip⟩ := skipSpace_blanks t
  rw [h] at ht
  refine ⟨blanks ++ front, by rw [ht, List.append_assoc], hskip front ?_⟩
  cases front with
  | nil => rfl
  | cons r front => exact skipSpace_cons (isSpace_of_skipSpace h) front

theorem skipSpace_number {n : Nat} {number : Text} (h : Overlong n number) (t : Text) :
    skipSpace (t ++ number) = skipSpace t ++ number := by
  obtain ⟨r, rest, rfl, hr⟩ := h.head
  exact skipSpace_append hr.isSpace t rest

/-- Where a reader stops at a number that is too long, it stops without the number at the end of the text
in front of it, with any budget that suffices: twice the length and one unit for a value or a field, two
for a list. -/
def StopsInFront (Stops : Nat → Text → Stop → Prop) (cost n : Nat) : Prop :=
  ∀ t k, Stops n t (.tooLong k) → ∃ front number, t = front ++ number ∧ Overlong k number ∧
    ∀ m, 2 * front.length + cost ≤ m → Stops m front (.fault .value 0)

theorem ListStopper.inFront_succ {β : Type} {Entry : Nat → Text → β → Text → Prop}
    {EntryStops : Nat → Text → Stop → Prop} {Stops : Nat → List β → Text → Stop → Prop}
    (hstopper : ListStopper Entry EntryStops Stops) {n : Nat} (hconsumes : Consumes Entry n)
    (hentry : StopsInFront EntryStops 1 n)
    (hlist : ∀ acc, StopsInFront (fun n => Stops n acc) 2 n) (acc : List β) :
    StopsInFront (fun n => Stops n acc) 2 (n + 1) := by
  intro t k h
  cases (hstopper.step (.tooLong k)).mp h with
  | entry hstops =>
      obtain ⟨front, number, rfl, hlong, hfront⟩ := hentry _ _ hstops
      refine ⟨front, number, rfl, hlong, fun m hm => ?_⟩
      obtain ⟨m, rfl⟩ := Nat.exists_eq_add_of_le' (show 1 ≤ m by omega)
      exact (hstopper.step (.absent 0)).mpr (.entry (hfront m (by omega)))
  | behind hread hcomma hstops =>
      obtain ⟨entry, rfl, hmet⟩ := hconsumes.met hread (by decide) hcomma
      obtain ⟨_, number, htail, hlong, hfront⟩ := hlist _ _ _ hstops
      obtain ⟨before, rfl, rfl⟩ := skipSpace_eq_append htail
      refine ⟨entry ++ .scalar ',' :: before, number, by simp, hlong, fun m hm => ?_⟩
      have hle := length_skipSpace_le before
      rw [List.length_append, List.length_cons] at hm
      obtain ⟨m, rfl⟩ := Nat.exists_eq_add_of_le' (show 1 ≤ m by omega)
      obtain ⟨mid, hread', hcomma'⟩ := hmet m (by omega) before
      exact (hstopper.step (.absent 0)).mpr (.behind hread' hcomma' (hfront m (by omega)))

theorem fieldInFront {n : Nat} (hvalue : StopsInFront StopsValue 1 n) : StopsInFront StopsField 1 n := by
  intro t k h
  obtain ⟨hname, hcolon, hstops⟩ := h
  obtain ⟨name, rfl, hmet⟩ := name_piece hname hcolon
  obtain ⟨_, number, htail, hlong, hfront⟩ := hvalue _ _ hstops
  obtain ⟨before, rfl, rfl⟩ := skipSpace_eq_append htail
  refine ⟨.scalar '"' :: (name ++ .scalar ':' :: before), number, by simp, hlong, fun m hm => ?_⟩
  have hle := length_skipSpace_le before
  rw [List.length_cons, List.length_append, List.length_cons] at hm
  obtain ⟨mid, hname', hcolon'⟩ := hmet before
  exact .intro hname' hcolon' (hfront m (by omega))

/-- The same behind a bracket that is not closed at once. -/
theorem opened_inFront {β : Type} {Stops : Nat → List β → Text → Stop → Prop} {n k : Nat}
    (hlist : ∀ acc, StopsInFront (fun n => Stops n acc) 2 n) {close : Rune} {t : Text}
    (hopen : ∀ tail, skipSpace t ≠ close :: tail) (hstops : Stops n [] (skipSpace t) (.tooLong k)) :
    ∃ before number, t = before ++ number ∧ Overlong k number ∧
      (∀ tail, skipSpace before ≠ close :: tail) ∧
      ∀ m, 2 * before.length + 2 ≤ m → Stops m [] (skipSpace before) (.fault .value 0) := by
  obtain ⟨_, number, htail, hlong, hfront⟩ := hlist _ _ _ hstops
  rw [htail] at hopen
  obtain ⟨before, rfl, rfl⟩ := skipSpace_eq_append htail
  have hle := length_skipSpace_le before
  refine ⟨before, number, rfl, hlong, fun tail heq => ?_, fun m hm => hfront m (by omega)⟩
  rw [heq] at hopen
  exact hopen _ rfl

theorem valueInFront_succ {n : Nat} (hitems : ∀ acc, StopsInFront (fun n => StopsItems n acc) 2 n)
    (hfields : ∀ acc, StopsInFront (fun n => StopsFields n acc) 2 n) :
    StopsInFront StopsValue 1 (n + 1) := by
  intro t k h
  cases (stopsValue_iff (.tooLong k)).mp h with
  | items hopen hstops =>
      obtain ⟨before, number, rfl, hlong, hopen', hstops'⟩ := opened_inFront hitems hopen hstops
      refine ⟨.scalar '[' :: before, number, rfl, hlong, fun m hm => ?_⟩
      rw [List.length_cons] at hm
      obtain ⟨m, rfl⟩ := Nat.exists_eq_add_of_le' (show 1 ≤ m by omega)
      exact (stopsValue_iff (.absent 0)).mpr (.items hopen' (hstops' m (by omega)))
  | fields hopen hstops =>
      obtain ⟨before, number, rfl, hlong, hopen', hstops'⟩ := opened_inFront hfields hopen hstops
      refine ⟨.scalar '\x7b' :: before, number, rfl, hlong, fun m hm => ?_⟩
      rw [List.length_cons] at hm
      obtain ⟨m, rfl⟩ := Nat.exists_eq_add_of_le' (show 1 ≤ m by omega)
      exact (stopsValue_iff (.absent 0)).mpr (.fields hopen' (hstops' m (by omega)))
  | bare hbare hscan =>
      refine ⟨[], t, rfl, scanScalar_tooLong.mp hscan, fun m hm => ?_⟩
      obtain ⟨m, rfl⟩ := Nat.exists_eq_add_of_le' (show 1 ≤ m by omega)
      rfl

theorem inFront (n : Nat) : StopsInFront StopsValue 1 n ∧
    (∀ acc, StopsInFront (fun n => StopsItems n acc) 2 n) ∧
    ∀ acc, StopsInFront (fun n => StopsFields n acc) 2 n := by
  induction n with
  | zero =>
      refine ⟨fun t k h => ?_, fun acc t k h => ?_, fun acc t k h => ?_⟩
      · cases h
      · cases h
      · cases h
  | succ n ih =>
      obtain ⟨hvalue, hitems, hfields⟩ := ih
      have hconsumes := (consumes n).1
      exact ⟨valueInFront_succ hitems hfields, itemsStopper.inFront_succ hconsumes hvalue hitems,
        fieldsStopper.inFront_succ (fieldConsumes hconsumes) (fieldInFront hvalue) hfields⟩

/-! ### With a number behind it -/

/-- Where a reader stops at the end of a text for want of a value, it stops at a number that is too long
when that follows. -/
def StopsBehind (Stops : Nat → Text → Stop → Prop) (cost m : Nat) : Prop :=
  ∀ front, 2 * front.length + cost ≤ m → Stops m front (.fault .value 0) →
    ∀ k number, Overlong k number → ∀ n, m ≤ n → Stops n (front ++ number) (.tooLong k)

theorem ListStopper.behind_succ {β : Type} {Entry : Nat → Text → β → Text → Prop}
    {EntryStops : Nat → Text → Stop → Prop} {Stops : Nat → List β → Text → Stop → Prop}
    (hstopper : ListStopper Entry EntryStops Stops) {m : Nat} (hconsumes : Consumes Entry m)
    (hentry : StopsBehind EntryStops 1 m) (hlist : ∀ acc, StopsBehind (fun n => Stops n acc) 2 m)
    (acc : List β) : StopsBehind (fun n => Stops n acc) 2 (m + 1) := by
  intro front hm h k number hlong n hn
  obtain ⟨n, rfl⟩ := Nat.exists_eq_add_of_le' (show 1 ≤ n by omega)
  cases (hstopper.step (.absent 0)).mp h with
  | entry hstops =>
      have hbehind := hentry front (by omega) hstops k number hlong n (by omega)
      exact (hstopper.step (.tooLong k)).mpr (.entry hbehind)
  | @behind _ tail _ _ hread hcomma hstops =>
      obtain ⟨entry, rfl, hmet⟩ := hconsumes.met hread (by decide) hcomma
      have hle := length_skipSpace_le tail
      rw [List.length_append, List.length_cons] at hm
      have hbehind := hlist _ _ (by omega) hstops k number hlong n (by omega)
      rw [← skipSpace_number hlong] at hbehind
      obtain ⟨mid, hread', hcomma'⟩ := hmet n (by omega) (tail ++ number)
      rw [List.append_assoc]
      exact (hstopper.step (.tooLong k)).mpr (.behind hread' hcomma' hbehind)

theorem fieldBehind {m : Nat} (hvalue : StopsBehind StopsValue 1 m) :
    StopsBehind StopsField 1 m := by
  intro front hm h k number hlong n hn
  obtain @⟨_, _, _, tail, _, hname, hcolon, hstops⟩ := h
  obtain ⟨name, rfl, hmet⟩ := name_piece hname hcolon
  have hle := length_skipSpace_le tail
  rw [List.length_cons, List.length_append, List.length_cons] at hm
  have hbehind := hvalue _ (by omega) hstops k number hlong n hn
  rw [← skipSpace_number hlong] at hbehind
  obtain ⟨mid, hname', hcolon'⟩ := hmet (tail ++ number)
  rw [List.cons_append, List.append_assoc]
  exact .intro hname' hcolon' hbehind

theorem opened_behind {β : Type} {Stops : Nat → List β → Text → Stop → Prop} {m : Nat}
    (hlist : ∀ acc, StopsBehind (fun n => Stops n acc) 2 m) {close : Rune} (hclose : ¬Leads close)
    {t : Text} (ht : 2 * t.length + 2 ≤ m) (hopen : ∀ tail, skipSpace t ≠ close :: tail)
    (hstops : Stops m [] (skipSpace t) (.fault .value 0)) {k : Nat} {number : Text}
    (hlong : Overlong k number) {n : Nat} (hn : m ≤ n) :
    (∀ tail, skipSpace (t ++ number) ≠ close :: tail) ∧
      Stops n [] (skipSpace (t ++ number)) (.tooLong k) := by
  have hle := length_skipSpace_le t
  rw [skipSpace_number hlong]
  refine ⟨fun tail heq => ?_, hlist _ _ (by omega) hstops k number hlong n hn⟩
  obtain ⟨r, rest, rfl, hr⟩ := hlong.head
  obtain ⟨_, hskip, -⟩ := head_append heq (hr.ne hclose)
  exact hopen _ hskip

theorem valueBehind_succ {m : Nat} (hitems : ∀ acc, StopsBehind (fun n => StopsItems n acc) 2 m)
    (hfields : ∀ acc, StopsBehind (fun n => StopsFields n acc) 2 m) :
    StopsBehind StopsValue 1 (m + 1) := by
  intro front hm h k number hlong n hn
  obtain ⟨n, rfl⟩ := Nat.exists_eq_add_of_le' (show 1 ≤ n by omega)
  refine (stopsValue_iff (.tooLong k)).mpr ?_
  cases (stopsValue_iff (.absent 0)).mp h with
  | items hopen hstops =>
      rw [List.length_cons] at hm
      obtain ⟨hopen', hstops'⟩ :=
        opened_behind hitems (by decide) (by omega) hopen hstops hlong (show m ≤ n by omega)
      exact .items hopen' hstops'
  | fields hopen hstops =>
      rw [List.length_cons] at hm
      obtain ⟨hopen', hstops'⟩ :=
        opened_behind hfields (by decide) (by omega) hopen hstops hlong (show m ≤ n by omega)
      exact .fields hopen' hstops'
  | bare hbare hscan =>
      obtain rfl := List.eq_nil_of_length_eq_zero (scanScalar_absent hscan).symm
      exact .bare hlong.bare (scanScalar_tooLong.mpr hlong)

theorem behind (m : Nat) : StopsBehind StopsValue 1 m ∧
    (∀ acc, StopsBehind (fun n => StopsItems n acc) 2 m) ∧
    ∀ acc, StopsBehind (fun n => StopsFields n acc) 2 m := by
  induction m with
  | zero =>
      refine ⟨fun front hm => ?_, fun acc front hm => ?_, fun acc front hm => ?_⟩
      · omega
      · omega
      · omega
  | succ m ih =>
      obtain ⟨hvalue, hitems, hfields⟩ := ih
      have hconsumes := (consumes m).1
      exact ⟨valueBehind_succ hitems hfields, itemsStopper.behind_succ hconsumes hvalue hitems,
        fieldsStopper.behind_succ (fieldConsumes hconsumes) (fieldBehind hvalue) hfields⟩

/-! ### Documents -/

/-- A text that a value is due behind: reading it fails at its end, where a value is missing. -/
def Awaits (front : Text) : Prop :=
  ∃ line column, parse front = .error (.malformed .value line column front.length)

theorem scanDocument_error {t : Text} {e : Stop} (he : e.AtValue) : scanDocument t = .error e ↔
    (∀ tail, t ≠ .scalar '\uFEFF' :: tail) ∧
      scanValue (2 * t.length + 1) (skipSpace t) = .error e := by
  unfold scanDocument
  constructor
  · intro h
    split at h
    next =>
      cases h
      cases he
    next hmark =>
      refine ⟨hmark, (error_of_bind.mp h).resolve_right fun ⟨_, _, hend⟩ => ?_⟩
      dsimp only at hend
      split at hend
      next => cases hend
      next =>
        cases hend
        cases he
  · rintro ⟨hmark, hscan⟩
    split
    next => exact absurd rfl (hmark _)
    next =>
      rw [hscan]
      rfl

theorem parse_tooLong {t : Text} {k : Nat} :
    parse t = .error (.tooLong k) ↔ scanDocument t = .error (.tooLong k) := by
  unfold parse
  cases scanDocument t with
  | ok v => exact iff_of_false nofun nofun
  | error stop =>
      cases stop with
      | fault what left => exact iff_of_false nofun nofun
      | tooLong n =>
          constructor <;> intro h <;> (cases h; rfl)

theorem awaits_iff {front : Text} :
    Awaits front ↔ scanDocument front = .error (.fault .value 0) := by
  constructor
  · rintro ⟨line, column, h⟩
    unfold parse at h
    split at h
    next => cases h
    next stop hstop =>
      cases stop with
      | tooLong => cases h
      | fault what left =>
          obtain ⟨rfl, -, -, hplace⟩ := ReadError.malformed.inj (Except.error.inj h)
          -- a place behind every rune leaves none, unless there is no rune at all
          cases front with
          | nil => rfl
          | cons r front =>
              obtain rfl : left = 0 := by
                rw [List.length_cons] at hplace
                omega
              exact hstop
  · intro h
    unfold Awaits parse
    rw [h]
    exact ⟨_, _, rfl⟩

example : Awaits "[1, " := ⟨1, 5, by decide +kernel⟩

/-- Reading a text stops at a number that is too long exactly when the text is such a number behind a text
that a value is due behind. -/
theorem parse_tooLong_iff {t : Text} {k : Nat} : parse t = .error (.tooLong k) ↔
    ∃ front number, t = front ++ number ∧ Awaits front ∧ Overlong k number := by
  constructor
  · intro h
    obtain ⟨hmark, hscan⟩ := (scanDocument_error (.tooLong k)).mp (parse_tooLong.mp h)
    obtain ⟨_, number, hskip, hlong, hfront⟩ := (inFront _).1 _ _ hscan
    obtain ⟨front, rfl, rfl⟩ := skipSpace_eq_append hskip
    have hle := length_skipSpace_le front
    have hmark' : ∀ tail, front ≠ .scalar '\uFEFF' :: tail := fun tail heq => by
      rw [heq] at hmark
      exact hmark _ rfl
    have hstop := (scanDocument_error (.absent 0)).mpr ⟨hmark', hfront _ (by omega)⟩
    exact ⟨front, number, rfl, awaits_iff.mpr hstop, hlong⟩
  · rintro ⟨front, number, rfl, hawaits, hlong⟩
    obtain ⟨hmark, hscan⟩ := (scanDocument_error (.absent 0)).mp (awaits_iff.mp hawaits)
    have hle := length_skipSpace_le front
    have hbehind := (behind _).1 _ (by omega) hscan k number hlong
      (2 * (front ++ number).length + 1) (by rw [List.length_append]; omega)
    rw [← skipSpace_number hlong] at hbehind
    refine parse_tooLong.mpr ((scanDocument_error (.tooLong k)).mpr ⟨fun tail heq => ?_, hbehind⟩)
    obtain ⟨r, rest, rfl, hr⟩ := hlong.head
    obtain ⟨_, hfront, -⟩ := head_append heq (hr.ne (by decide))
    exact hmark _ hfront

end RemoteModel.Json
