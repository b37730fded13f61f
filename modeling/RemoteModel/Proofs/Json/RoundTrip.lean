import RemoteModel.Proofs.Entries
import RemoteModel.Proofs.Json.Bare
import RemoteModel.Proofs.Json.Everywhere
import RemoteModel.Proofs.Json.Steps

/-!
What is written is read back, for every document whose numbers are whole and not too long and whose
objects do not repeat a name. Halves of surrogate pairs that stand side by side come back as the
character they make up, so reading undoes writing where text is well formed.
-/

namespace RemoteModel.Json

/-- What may follow a value: nothing, or a rune that goes on with or closes what the value is in. -/
def endsValue : Text → Bool
  | [] => true
  | r :: _ => r = .scalar ',' || r = .scalar ']' || r = .scalar '\x7d'

theorem endsValue_cases {rest : Text} (hrest : endsValue rest = true) :
    rest = [] ∨ ∃ tail, rest = .scalar ',' :: tail ∨ rest = .scalar ']' :: tail ∨
      rest = .scalar '\x7d' :: tail := by
  cases rest with
  | nil => exact .inl rfl
  | cons r tail =>
      simp only [endsValue, Bool.or_eq_true, decide_eq_true_eq] at hrest
      rcases hrest with (rfl | rfl) | rfl
      · exact .inr ⟨tail, .inl rfl⟩
      · exact .inr ⟨tail, .inr (.inl rfl)⟩
      · exact .inr ⟨tail, .inr (.inr rfl)⟩

theorem stops_of_endsValue {rest : Text} (hrest : endsValue rest = true) : ¬GoesOn rest := by
  obtain rfl | ⟨tail, rfl | rfl | rfl⟩ := endsValue_cases hrest
  · exact nofun
  all_goals
    intro h
    cases h with
    | digit hd => cases hd
    | exponent hmark => rcases hmark with heq | heq <;> cases heq

theorem natOfDigits_ofNat (n : Nat) : natOfDigits (Text.ofNat n) = n := by
  have hread := Nat.ofDigitChars_ten_toDigits (n := n)
  unfold natOfDigits Text.ofNat
  rw [List.foldl_map]
  unfold Nat.ofDigitChars at hread
  simp only [Nat.mul_comm 10] at hread
  exact hread

theorem scanWhole_ofNat (n : Nat) {rest : Text} (hrest : endsValue rest = true) :
    scanWhole (Text.ofNat n ++ rest) = some (Text.ofNat n, rest) := by
  cases n with
  | zero => rfl
  | succ n =>
      obtain ⟨r, tail, hhead, hr⟩ := Text.ofNat_head (Nat.succ_pos n)
      refine scanWhole_digits (Text.ofNat_ne_nil _) (fun _ => Text.isDigit_of_mem_ofNat) ?_ ?_
      · rw [hhead]
        exact fun heq => hr (Option.some.inj heq)
      · exact fun _ _ => not_digit_of_stops (stops_of_endsValue hrest)

theorem scanNumber_ofInt {i : Int} (hi : (Json.int i).Exact) {rest : Text}
    (hrest : endsValue rest = true) : scanNumber (Text.ofInt i ++ rest) = .ok (.int i, rest) := by
  have hshort : ¬Numeral.digitLimit < (Text.ofNat i.natAbs).length := Nat.not_lt.mpr hi
  have hstops := stops_of_endsValue hrest
  unfold scanNumber
  split
  next negative body hsigned =>
    obtain ⟨rfl, rfl⟩ : negative = decide (i < 0) ∧ body = Text.ofNat i.natAbs ++ rest := by
      unfold Text.ofInt at hsigned
      by_cases hneg : i < 0
      · rw [if_pos hneg] at hsigned
        cases hsigned
        exact ⟨(decide_eq_true hneg).symm, rfl⟩
      · rw [if_neg hneg] at hsigned
        obtain ⟨r, tail, hdigits, hdigit⟩ := Text.ofNat_cons i.natAbs
        rw [hdigits] at hsigned ⊢
        split at hsigned
        next heq =>
          rw [(List.cons.inj heq).1] at hdigit
          cases hdigit
        next =>
          cases hsigned
          exact ⟨(decide_eq_false hneg).symm, rfl⟩
    rw [scanWhole_ofNat _ hrest]
    dsimp only
    rw [scanFraction_of_stops hstops]
    dsimp only
    rw [scanExponent_of_stops hstops]
    dsimp only
    rw [if_neg hshort, natOfDigits_ofNat]
    congr 3
    by_cases hneg : i < 0
    · rw [decide_eq_true hneg, if_pos rfl]
      omega
    · rw [decide_eq_false hneg, if_neg Bool.false_ne_true]
      omega

theorem words_ofInt (i : Int) (rest : Text) :
    words.find? (fun w => (Text.ofInt i ++ rest).startsWith w.1) = none := by
  obtain ⟨r, tail, hdigits, hdigit⟩ := Text.ofNat_cons i.natAbs
  unfold Text.ofInt
  rw [hdigits]
  split
  · exact words_digit (.inr rfl) hdigit (tail ++ rest)
  · exact words_digit (.inl rfl) hdigit (tail ++ rest)

theorem scanScalar_ofInt {i : Int} (hi : (Json.int i).Exact) {rest : Text}
    (hrest : endsValue rest = true) : scanScalar (Text.ofInt i ++ rest) = .ok (.int i, rest) := by
  unfold scanScalar
  rw [words_ofInt, scanNumber_ofInt hi hrest]

theorem ofInt_head (i : Int) :
    ∃ r tail, Text.ofInt i = r :: tail ∧ (r = .scalar '-' ∨ r.isDigit = true) := by
  unfold Text.ofInt
  split
  next => exact ⟨_, _, rfl, .inl rfl⟩
  next =>
    obtain ⟨r, tail, hdigits, hdigit⟩ := Text.ofNat_cons i.natAbs
    exact ⟨r, tail, hdigits, .inr hdigit⟩

theorem render_head {v : Json} (hv : v.Exact) :
    ∃ r tail, v.render = r :: tail ∧ isSpace r = false ∧ r ≠ .scalar ']' ∧
      r ≠ .scalar '\uFEFF' := by
  unfold render
  split
  next => exact ⟨_, _, rfl, rfl, by decide, by decide⟩
  next b => cases b <;> exact ⟨_, _, rfl, rfl, by decide, by decide⟩
  next i =>
    obtain ⟨r, tail, hint, hhead⟩ := ofInt_head i
    refine ⟨r, tail, hint, ?_⟩
    rcases hhead with rfl | hdigit
    · exact ⟨rfl, by decide, by decide⟩
    · refine ⟨isSpace_of_isDigit hdigit, ?_, ?_⟩ <;> rintro rfl <;> cases hdigit
  next => exact hv.elim
  next => exact ⟨_, _, rfl, rfl, by decide, by decide⟩
  next => exact ⟨_, _, rfl, rfl, by decide, by decide⟩
  next => exact ⟨_, _, rfl, rfl, by decide, by decide⟩
  next => exact ⟨_, _, rfl, rfl, by decide, by decide⟩
  next => exact ⟨_, _, rfl, rfl, by decide, by decide⟩

theorem render_ne_nil {v : Json} (hv : v.Exact) : 0 < v.render.length := by
  obtain ⟨r, tail, hrender, _⟩ := render_head hv
  rw [hrender]
  exact Nat.succ_pos _

theorem skipSpace_render {v : Json} (hv : v.Exact) (rest : Text) :
    skipSpace (.scalar ' ' :: (v.render ++ rest)) = v.render ++ rest := by
  obtain ⟨r, tail, hrender, hspace, _, _⟩ := render_head hv
  rw [hrender]
  exact skipSpace_cons hspace (tail ++ rest)

theorem scanValue_arr {v : Json} (hv : v.Exact) (budget : Nat) (rest : Text) :
    scanValue (budget + 1) (.scalar '[' :: (v.render ++ rest)) =
      scanItems budget [] (v.render ++ rest) := by
  obtain ⟨r, tail, hrender, hspace, hclose, _⟩ := render_head hv
  rw [hrender, List.cons_append, scanValue]
  rw [skipSpace_cons hspace]
  split
  next heq => exact absurd (List.cons.inj heq).1 hclose
  next => rfl

theorem endsValue_renderItems (items : List Json) (rest : Text) :
    endsValue (renderItems items ++ rest) = true := by
  cases items <;> rfl

mutual

/-- A value as it comes back. -/
def rejoined : Json → Json
  | .str t => .str (joined t)
  | .arr items => .arr (rejoinedItems items)
  | .obj fields => .obj (rejoinedFields fields)
  | v => v

def rejoinedItems : List Json → List Json
  | [] => []
  | v :: items => rejoined v :: rejoinedItems items

def rejoinedFields : List (Text × Json) → List (Text × Json)
  | [] => []
  | (name, v) :: fields => (joined name, rejoined v) :: rejoinedFields fields

end

/-- The names of an object stay apart when they come back. -/
def Distinct : Json → Prop
  | .obj fields => (Entries.names (rejoinedFields fields)).Nodup
  | _ => True

theorem rejoinedItems_eq (items : List Json) : rejoinedItems items = items.map rejoined := by
  induction items with
  | nil => rfl
  | cons v items ih => rw [rejoinedItems, ih, List.map_cons]

theorem rejoinedFields_eq (fields : List (Text × Json)) :
    rejoinedFields fields = fields.map fun f => (joined f.1, rejoined f.2) := by
  induction fields with
  | nil => rfl
  | cons f fields ih => rw [rejoinedFields, ih, List.map_cons]

theorem rejoined_of_tidy {v : Json} (h : Everywhere Tidy v) : v.rejoined = v := by
  induction h with
  | @intro v hv _ ih =>
      cases v with
      | str t => rw [rejoined, joined_of_scalars hv]
      | arr items =>
          have hitems : items.map rejoined = items :=
            (List.map_congr_left ih).trans (List.map_id' items)
          rw [rejoined, rejoinedItems_eq, hitems]
      | obj fields =>
          have hfield (f) (hf : f ∈ fields) : (joined f.1, rejoined f.2) = f := by
            rw [joined_of_scalars (hv.1 f.1 (List.mem_map_of_mem hf)),
              ih f.2 (List.mem_map_of_mem hf)]
          rw [rejoined, rejoinedFields_eq, List.map_congr_left hfield, List.map_id']
      | _ => rfl

theorem Everywhere.distinct {v : Json} (h : Everywhere Tidy v) : Everywhere Distinct v := by
  induction h with
  | @intro v hv hinside ih =>
      refine .intro ?_ ih
      cases v with
      | obj fields =>
          have hback := rejoined_of_tidy (.intro hv hinside)
          rw [rejoined, Json.obj.injEq] at hback
          change (Entries.names (rejoinedFields fields)).Nodup
          rw [hback]
          exact hv.2
      | _ => trivial

/-- The value is read back whatever follows it. -/
def ReadsBack (v : Json) : Prop :=
  ∀ budget rest, 2 * v.render.length ≤ budget → endsValue rest = true →
    scanValue budget (v.render ++ rest) = .ok (v.rejoined, rest)

theorem scanItems_render {v : Json} {items : List Json} (hexact : ∀ w ∈ v :: items, w.Exact)
    (hreads : ∀ w ∈ v :: items, w.ReadsBack) {budget : Nat}
    (hbudget : 2 * (v.render ++ renderItems items).length ≤ budget) (acc : List Json) (rest : Text) :
    scanItems budget acc (v.render ++ (renderItems items ++ rest)) =
      .ok (.arr (acc.reverse ++ rejoinedItems (v :: items)), rest) := by
  -- the budget shrinks by one with every item, and an item takes at least one rune
  induction items generalizing v budget acc with
  | nil =>
      rw [List.length_append, show (renderItems []).length = 1 from rfl] at hbudget
      obtain ⟨budget, rfl⟩ : ∃ n, budget = n + 1 := ⟨budget - 1, by omega⟩
      rw [scanItems, hreads v List.mem_cons_self budget _ (by omega) (endsValue_renderItems [] rest)]
      change _ = Except.ok (Json.arr (acc.reverse ++ [v.rejoined]), rest)
      rw [← List.reverse_cons]
      rfl
  | cons w items ih =>
      rw [List.length_append, renderItems, List.length_cons, List.length_cons] at hbudget
      obtain ⟨budget, rfl⟩ : ∃ n, budget = n + 1 := ⟨budget - 1, by omega⟩
      rw [scanItems, hreads v List.mem_cons_self budget _ (by omega)
        (endsValue_renderItems (w :: items) rest), renderItems]
      have hskip := skipSpace_render (hexact w (by simp)) (renderItems items ++ rest)
      rw [← List.append_assoc] at hskip
      change scanItems budget (v.rejoined :: acc)
        (skipSpace (.scalar ' ' :: (w.render ++ renderItems items ++ rest))) = _
      rw [hskip, List.append_assoc, ih (fun x hx => hexact x (List.mem_cons_of_mem _ hx))
        (fun x hx => hreads x (List.mem_cons_of_mem _ hx)) (by omega) (v.rejoined :: acc),
        List.reverse_cons, List.append_assoc]
      rfl

section

variable {name : Text} {v : Json} {budget : Nat}

theorem scanFields_last (hv : v.Exact) (hread : v.ReadsBack)
    (hbudget : 2 * v.render.length ≤ budget) (acc : List (Text × Json)) (rest : Text) :
    scanFields (budget + 1) acc
        (renderText name ++ .scalar ':' :: .scalar ' ' :: (v.render ++ .scalar '\x7d' :: rest)) =
      .ok (.obj (Entries.ofPairs ((joined name, v.rejoined) :: acc).reverse), rest) := by
  have hcolon (tail : Text) : skipSpace (.scalar ':' :: tail) = .scalar ':' :: tail := rfl
  have hvalue := hread budget (.scalar '\x7d' :: rest) hbudget rfl
  rw [renderText_append, scanFields, scanQuoted_renderText]
  simp only [bind, Except.bind, hcolon, skipSpace_render hv, hvalue]
  rfl

theorem scanFields_next (hv : v.Exact) (hread : v.ReadsBack)
    (hbudget : 2 * v.render.length ≤ budget) (acc : List (Text × Json)) (next rest : Text) :
    scanFields (budget + 1) acc (renderText name ++ .scalar ':' :: .scalar ' ' ::
        (v.render ++ .scalar ',' :: .scalar ' ' :: (renderText next ++ rest))) =
      scanFields budget ((joined name, v.rejoined) :: acc) (renderText next ++ rest) := by
  have hcolon (tail : Text) : skipSpace (.scalar ':' :: tail) = .scalar ':' :: tail := rfl
  have hvalue := hread budget (.scalar ',' :: .scalar ' ' :: (renderText next ++ rest)) hbudget rfl
  rw [renderText_append name, scanFields, scanQuoted_renderText]
  simp only [bind, Except.bind, hcolon, skipSpace_render hv, hvalue]
  rfl

end

theorem scanFields_render {name : Text} {v : Json} {fields : List (Text × Json)}
    (hexact : ∀ f ∈ (name, v) :: fields, f.2.Exact)
    (hreads : ∀ f ∈ (name, v) :: fields, f.2.ReadsBack) {budget : Nat}
    (hbudget : 2 * (v.render ++ renderFields fields).length ≤ budget) (acc : List (Text × Json))
    (rest : Text) :
    scanFields budget acc
        (renderText name ++ .scalar ':' :: .scalar ' ' :: (v.render ++ (renderFields fields ++ rest))) =
      .ok (.obj (Entries.ofPairs (acc.reverse ++ rejoinedFields ((name, v) :: fields))), rest) := by
  have hv : v.Exact := hexact _ List.mem_cons_self
  have hread : v.ReadsBack := hreads _ List.mem_cons_self
  induction fields generalizing name v budget acc with
  | nil =>
      rw [List.length_append, show (renderFields []).length = 1 from rfl] at hbudget
      obtain ⟨budget, rfl⟩ : ∃ n, budget = n + 1 := ⟨budget - 1, by omega⟩
      change _ =
        Except.ok (Json.obj (Entries.ofPairs (acc.reverse ++ [(joined name, v.rejoined)])), rest)
      rw [← List.reverse_cons]
      exact scanFields_last hv hread (by omega) acc rest
  | cons f fields ih =>
      obtain ⟨name', w⟩ := f
      rw [List.length_append, renderFields, List.length_cons, List.length_cons, List.length_append,
        List.length_cons, List.length_cons] at hbudget
      obtain ⟨budget, rfl⟩ : ∃ n, budget = n + 1 := ⟨budget - 1, by omega⟩
      have hrest := @ih name' w (fun g hg => hexact g (List.mem_cons_of_mem _ hg))
        (fun g hg => hreads g (List.mem_cons_of_mem _ hg)) budget (by omega)
        ((joined name, v.rejoined) :: acc) (hexact (name', w) (by simp)) (hreads (name', w) (by simp))
      rw [List.reverse_cons, List.append_assoc] at hrest
      rw [renderFields]
      simp only [List.append_assoc, List.cons_append]
      rw [scanFields_next hv hread (by omega)]
      exact hrest

theorem scanValue_obj (name : Text) (budget : Nat) (rest : Text) :
    scanValue (budget + 1) (.scalar '\x7b' :: (renderText name ++ rest)) =
      scanFields budget [] (renderText name ++ rest) := by
  rw [renderText_append, scanValue]
  rfl

theorem scanValue_ofInt (i : Int) (budget : Nat) (rest : Text) :
    scanValue (budget + 1) (Text.ofInt i ++ rest) = scanScalar (Text.ofInt i ++ rest) := by
  obtain ⟨r, tail, hint, hhead⟩ := ofInt_head i
  have hopens : r ≠ .scalar '"' ∧ r ≠ .scalar '[' ∧ r ≠ .scalar '\x7b' := by
    rcases hhead with rfl | hdigit
    · decide
    · refine ⟨?_, ?_, ?_⟩ <;> rintro rfl <;> cases hdigit
  rw [hint, List.cons_append, scanValue]
  · exact fun _ heq => hopens.1 (List.cons.inj heq).1
  · exact fun _ heq => hopens.2.1 (List.cons.inj heq).1
  · exact fun _ heq => hopens.2.2 (List.cons.inj heq).1

theorem readsBack {v : Json} (hdistinct : Everywhere Distinct v) (hexact : Everywhere Exact v) :
    v.ReadsBack := by
  -- what is inside a value is read back by induction, whatever it stands before
  induction hexact with
  | @intro v hv hinside ih =>
      intro budget rest hbudget hrest
      have hpos := render_ne_nil hv
      obtain ⟨budget, rfl⟩ : ∃ n, budget = n + 1 := ⟨budget - 1, by omega⟩
      match v with
      | .null => rfl
      | .bool true => rfl
      | .bool false => rfl
      | .int i =>
          rw [render, scanValue_ofInt]
          exact scanScalar_ofInt hv hrest
      | .float x => exact hv.elim
      | .str t =>
          rw [render, renderText_append, scanValue, scanQuoted_renderText]
          rfl
      | .arr [] => rfl
      | .arr (v :: items) =>
          rw [render] at hbudget ⊢
          rw [List.cons_append, List.append_assoc, scanValue_arr (hinside v List.mem_cons_self).here]
          rw [List.length_cons] at hbudget
          exact scanItems_render (fun w hw => (hinside w hw).here)
            (fun w hw => ih w hw (hdistinct.items w hw)) (by omega) [] rest
      | .obj [] => rfl
      | .obj ((name, v) :: fields) =>
          rw [render] at hbudget ⊢
          simp only [List.length_cons, List.length_append] at hbudget
          simp only [List.cons_append, List.append_assoc]
          have hfields := scanFields_render
            (fun f hf => (hinside f.2 (List.mem_map_of_mem hf)).here)
            (fun f hf => ih f.2 (List.mem_map_of_mem hf) (hdistinct.field hf))
            (show 2 * (v.render ++ renderFields fields).length ≤ budget by
              rw [List.length_append]
              omega) [] rest
          rw [List.reverse_nil, List.nil_append, Entries.ofPairs_of_nodup hdistinct.here] at hfields
          rw [scanValue_obj]
          exact hfields

theorem parse_render_rejoined {v : Json} (hdistinct : Everywhere Distinct v)
    (hexact : Everywhere Exact v) : parse v.render = .ok v.rejoined := by
  obtain ⟨r, tail, hrender, hspace, _, hmark⟩ := render_head hexact.here
  have hread := readsBack hdistinct hexact (2 * v.render.length + 1) [] (by omega) rfl
  have hskip : skipSpace v.render = v.render := by
    rw [hrender]
    exact skipSpace_cons hspace tail
  refine parse_iff.mpr ⟨fun _ heq => ?_, [], ?_, rfl⟩
  · rw [hrender] at heq
    exact hmark (List.cons.inj heq).1
  · rw [List.append_nil] at hread
    rw [hskip]
    exact hread

/-- Reading undoes writing. -/
theorem parse_render {v : Json} (htidy : Everywhere Tidy v) (hexact : Everywhere Exact v) :
    parse v.render = .ok v := by
  rw [parse_render_rejoined htidy.distinct hexact, rejoined_of_tidy htidy]

end RemoteModel.Json
