import RemoteModel.Proofs.Json.Bare
import RemoteModel.Proofs.Json.Steps

/-!
Documents with a hole. Where a document with an array of one empty text in it is read, whatever else reads
as a value and opens with a bracket may stand in place of that array: what is around it is read as before,
and what is read is the one value in place of the other.
-/

namespace RemoteModel.Json

/-- What stands around a value in an array or in an object. -/
inductive Frame where
  | item (before after : List Json)
  | field (before : List (Text × Json)) (name : Text) (after : List (Text × Json))

def Frame.put : Frame → Json → Json
  | .item before after, v => .arr (before ++ v :: after)
  | .field before name after, v => .obj (Entries.ofPairs (before ++ (name, v) :: after))

/-- A value with frames around it, the outermost first. -/
def within (frames : List Frame) (v : Json) : Json := frames.foldr Frame.put v

/-- The array that marks the hole: its quotes tell a hole in a text from one that holds a value. -/
def sample : Text := [.scalar '[', .scalar '"', .scalar '"', .scalar ']']

def sampleValue : Json := .arr [.str []]

/-- A text that may stand for the sample: it is read as `w` whatever follows, with `extra` more steps. -/
structure Stands (y : Text) (w : Json) (extra : Nat) : Prop where
  opens : ∃ z, y = .scalar '[' :: z
  reads : ∀ rest, ReadsValue (extra + 3) (y ++ rest) w rest

/-- What is made of a value is a value with frames around it. -/
def Framed (made : Json → Json) : Prop := ∃ frames, made = within frames

/-- What is made of a value is a field with the value somewhere in its own. -/
def FramedField (made : Json → Text × Json) : Prop :=
  ∃ name value, Framed value ∧ made = fun w => (name, value w)

/-- How reading gets past the sample between `p` and `q`: it ends in front of it, whatever the bracket
opens, or what is read is made of the sample's value, and of another one with another text in its place. -/
inductive Passes {β : Type} (Reads : Nat → Text → β → Text → Prop) (Shape : (Json → β) → Prop) (n : Nat)
    (p q : Text) : β → Text → Prop
  | before {b : β} {tail : Text} : (∀ z, Reads n (p ++ .scalar '[' :: z) b (tail ++ .scalar '[' :: z)) →
      Passes Reads Shape n p q b (tail ++ (sample ++ q))
  | around {rest : Text} (made : Json → β) : Shape made →
      (∀ y w extra, Stands y w extra → Reads (n + extra) (p ++ (y ++ q)) (made w) rest) →
      Passes Reads Shape n p q (made sampleValue) rest

/-! ### Quoted text -/

/-- A bracket is spelt by itself and is part of no escape. -/
theorem Spelt.bracket {r : Rune} {spelling next : Text} (h : Spelt r spelling next)
    (hmem : .scalar '[' ∈ spelling) : spelling = [.scalar '['] := by
  have hslash : Rune.scalar '[' ≠ .scalar '\\' := by decide
  have hu : Rune.scalar '[' ≠ .scalar 'u' := by decide
  cases h with
  | itself => rw [List.mem_singleton.mp hmem]
  | letter hletter =>
      rw [← List.mem_singleton.mp (List.mem_of_ne_of_mem hslash hmem)] at hletter
      cases hletter
  | code hquad =>
      have hmem := List.mem_of_ne_of_mem hu (List.mem_of_ne_of_mem hslash hmem)
      exact absurd hmem (not_mem_hexQuad hquad rfl)
  | @pair a b c d _ _ _ _ _ _ _ hfirst hsecond =>
      have hmem := List.mem_of_ne_of_mem hu (List.mem_of_ne_of_mem hslash hmem)
      rcases List.mem_append (s := [a, b, c, d]).mp hmem with hmem | hmem
      · exact absurd hmem (not_mem_hexQuad hfirst rfl)
      · have hmem := List.mem_of_ne_of_mem hu (List.mem_of_ne_of_mem hslash hmem)
        exact absurd hmem (not_mem_hexQuad hsecond rfl)

theorem Spelt.head {r : Rune} {spelling next : Text} (h : Spelt r spelling next) :
    ∃ s more, spelling = s :: more ∧ s ≠ .scalar '"' := by
  cases h with
  | itself hquote => exact ⟨r, [], rfl, fun heq => hquote (by rw [heq]; rfl)⟩
  | letter => exact ⟨_, _, rfl, by decide⟩
  | code => exact ⟨_, _, rfl, by decide⟩
  | pair => exact ⟨_, _, rfl, by decide⟩

theorem Spells.head {body t : Text} (h : Spells body t) (x : Text) : body ≠ .scalar '"' :: x := by
  cases h with
  | nil => exact List.cons_ne_nil _ _ |>.symm
  | cons hspelt =>
      obtain ⟨s, more, rfl, hs⟩ := hspelt.head
      exact fun heq => hs (List.cons.inj heq).1

/-- No quoted text goes on behind a bracket and a quote. -/
theorem Spells.no_quote {body t : Text} (h : Spells body t) (p x : Text) :
    body ≠ p ++ .scalar '[' :: .scalar '"' :: x := by
  induction h generalizing p with
  | nil => exact fun heq => List.append_ne_nil_of_right_ne_nil p (List.cons_ne_nil _ _) heq.symm
  | cons hspelt hbody ih =>
      intro heq
      rcases List.append_eq_append_iff.mp heq with ⟨a, rfl, hbody'⟩ | ⟨c, rfl, hc⟩
      · exact ih a hbody'
      · cases c with
        | nil => exact ih [] hc.symm
        | cons s c =>
            obtain ⟨rfl, hrest⟩ := List.cons.inj hc
            have hone := hspelt.bracket (List.mem_append_right p List.mem_cons_self)
            obtain ⟨-, halone⟩ := (List.append_eq_singleton_iff.mp hone).resolve_right
              fun ⟨_, hnil⟩ => List.cons_ne_nil _ _ hnil
            rw [(List.cons.inj halone).2] at hrest
            exact hbody.head x hrest.symm

/-- A quoted text ends in front of the sample or at the sample's first quote. -/
theorem quoted_sample {p q s rest : Text} (h : scanQuoted (p ++ (sample ++ q)) = .ok (s, rest)) :
    (∃ tail, rest = tail ++ (sample ++ q) ∧
      ∀ z, scanQuoted (p ++ .scalar '[' :: z) = .ok (s, tail ++ .scalar '[' :: z)) ∨
    rest = .scalar '"' :: .scalar ']' :: q := by
  obtain ⟨body, heq, hspells⟩ := spells_of_scanQuoted h
  rcases List.append_eq_append_iff.mp heq with ⟨a, rfl, ha⟩ | ⟨c, rfl, hc⟩
  · -- the text reaches into the sample: its bracket is spelt by itself, its first quote closes
    refine .inr ?_
    match a, ha with
    | [], ha => cases ha
    | [_], ha =>
        cases ha
        rfl
    | _ :: _ :: a, ha =>
        obtain ⟨hbracket, ha⟩ := List.cons.inj ha
        rw [← hbracket, ← (List.cons.inj ha).1] at hspells
        exact absurd rfl (hspells.no_quote p a)
  · refine .inl ?_
    cases c with
    | nil => cases hc
    | cons r tail =>
        obtain ⟨rfl, rfl⟩ := List.cons.inj hc
        refine ⟨tail, rfl, fun z => ?_⟩
        rw [List.append_assoc]
        exact hspells.scanQuoted _

/-! ### Values, items and fields -/

theorem skipSpace_sample (p q : Text) :
    skipSpace (p ++ (sample ++ q)) = skipSpace p ++ (sample ++ q) := skipSpace_append rfl p _

/-- What is met in front of the sample is met there whatever stands in place of the sample. -/
theorem skipSpace_front {p q rest : Text} {r : Rune} (hr : r ≠ .scalar '[')
    (h : skipSpace (p ++ (sample ++ q)) = r :: rest) : ∃ tail, rest = tail ++ (sample ++ q) ∧
      ∀ z, skipSpace (p ++ .scalar '[' :: z) = r :: (tail ++ .scalar '[' :: z) :=
  skipSpace_head rfl hr h

/-- A reader that gets past the sample takes along one that calls it. -/
theorem Passes.step {β γ : Type} {Reads : Nat → Text → β → Text → Prop} {Shape : (Json → β) → Prop}
    {Reads' : Nat → Text → γ → Text → Prop} {Shape' : (Json → γ) → Prop} {n n' : Nat} {p p' q rest : Text}
    {b : β} (wrap : β → γ) (h : Passes Reads Shape n p q b rest)
    (hshape : ∀ made, Shape made → Shape' (wrap ∘ made))
    (hstep : ∀ extra z b rest, Reads (n + extra) (p ++ .scalar '[' :: z) b rest →
      Reads' (n' + extra) (p' ++ .scalar '[' :: z) (wrap b) rest) :
    Passes Reads' Shape' n' p' q (wrap b) rest := by
  cases h with
  | before hall => exact .before fun z => hstep 0 z _ _ (hall z)
  | around made hmade hall =>
      refine .around (wrap ∘ made) (hshape made hmade) fun y w extra hy => ?_
      have hread := hall y w extra hy
      obtain ⟨z, rfl⟩ := hy.opens
      exact hstep extra (z ++ q) _ _ hread

/-- A value or an entry is got past unless it ends within the sample. -/
def EntryPasses {β : Type} (Entry : Nat → Text → β → Text → Prop) (Shape : (Json → β) → Prop) (n : Nat) :
    Prop :=
  ∀ p q b rest, Entry n (p ++ (sample ++ q)) b rest →
    Passes Entry Shape n p q b rest ∨ rest = .scalar '"' :: .scalar ']' :: q

def ListPasses {β : Type} (Reads : Nat → List β → Text → Json → Text → Prop) (n : Nat) : Prop :=
  ∀ p q acc v rest, Reads n acc (p ++ (sample ++ q)) v rest →
    Passes (fun n => Reads n acc) Framed n p q v rest

/-- The sample itself takes three steps. -/
theorem readsValue_sample {n : Nat} {q rest : Text} {v : Json} (h : ReadsValue n (sample ++ q) v rest) :
    3 ≤ n ∧ v = sampleValue ∧ rest = q := by
  have hthree : ReadsValue 3 (sample ++ q) sampleValue q := rfl
  match n, h with
  | 0, h => cases h
  | 1, h => cases h
  | 2, h => cases h
  | n + 3, h =>
      have hn := (settled 3).1 _ _ _ hthree (n + 3) (Nat.le_add_left 3 n)
      cases h.symm.trans hn
      exact ⟨Nat.le_add_left 3 n, rfl, rfl⟩

theorem valuePasses_succ {n : Nat} (hitems : ListPasses ReadsItems n)
    (hfields : ListPasses ReadsFields n) : EntryPasses ReadsValue Framed (n + 1) := by
  intro p q v rest h
  cases p with
  | nil =>
      -- the value is the sample itself
      obtain ⟨hn, rfl, rfl⟩ := readsValue_sample h
      refine .inl (.around id ⟨[], rfl⟩ fun y w extra hy => ?_)
      exact (settled (extra + 3)).1 _ _ _ (hy.reads _) _ (by omega)
  | cons r p =>
      cases readsValue_iff.mp h with
      | quoted hscan =>
          rcases quoted_sample hscan with ⟨tail, rfl, hall⟩ | htorn
          · exact .inl (.before fun z => readsValue_iff.mpr (.quoted (hall z)))
          · exact .inr htorn
      | noItems hclose =>
          obtain ⟨tail, rfl, hall⟩ := skipSpace_front (by decide) hclose
          exact .inl (.before fun z => readsValue_iff.mpr (.noItems (hall z)))
      | items hopen hread =>
          have hread : ReadsItems n [] (skipSpace p ++ (sample ++ q)) v rest := by
            rw [← skipSpace_sample]
            exact hread
          refine .inl ((hitems _ _ _ _ _ hread).step id (fun _ hmade => hmade) ?_)
          intro extra z v rest hread
          rw [← skipSpace_append rfl] at hread
          rw [Nat.add_right_comm]
          exact readsValue_iff.mpr (.items (skipSpace_ne_head rfl (by decide) hopen z) hread)
      | noFields hclose =>
          obtain ⟨tail, rfl, hall⟩ := skipSpace_front (by decide) hclose
          exact .inl (.before fun z => readsValue_iff.mpr (.noFields (hall z)))
      | fields hopen hread =>
          have hread : ReadsFields n [] (skipSpace p ++ (sample ++ q)) v rest := by
            rw [← skipSpace_sample]
            exact hread
          refine .inl ((hfields _ _ _ _ _ hread).step id (fun _ hmade => hmade) ?_)
          intro extra z v rest hread
          rw [← skipSpace_append rfl] at hread
          rw [Nat.add_right_comm]
          exact readsValue_iff.mpr (.fields (skipSpace_ne_head rfl (by decide) hopen z) hread)
      | bare hbare hscan =>
          obtain ⟨tail, rfl, hall⟩ := bare_append (t := r :: p) (by decide) hscan
          exact .inl (.before fun z => readsValue_iff.mpr (.bare (hbare.of_head _) (hall z)))

/-- The name of a field stands in front of the sample, so the sample is in the field's value or behind. -/
theorem fieldPasses {n : Nat} (hvalue : EntryPasses ReadsValue Framed n) :
    EntryPasses ReadsField FramedField n := by
  intro p q f rest h
  cases p with
  | nil => cases h
  | cons r p =>
      obtain ⟨hname, hcolon, hread⟩ := h
      rcases quoted_sample hname with ⟨tail, rfl, hquoted⟩ | rfl
      · obtain ⟨tail, rfl, hfront⟩ := skipSpace_front (by decide) hcolon
        rw [skipSpace_sample] at hread
        rcases hvalue _ _ _ _ hread with hpass | htorn
        · refine .inl (hpass.step (Prod.mk _) (fun made hmade => ⟨_, made, hmade, rfl⟩) ?_)
          intro extra z v rest hread
          rw [← skipSpace_append rfl] at hread
          exact .intro (hquoted z) (hfront z) hread
        · exact .inr htorn
      · cases hcolon

theorem framed_item {made : Json → Json} (hmade : Framed made) (before after : List Json) :
    Framed fun w => .arr (before ++ made w :: after) := by
  obtain ⟨frames, rfl⟩ := hmade
  exact ⟨.item before after :: frames, rfl⟩

theorem framed_field {made : Json → Text × Json} (hmade : FramedField made)
    (before after : List (Text × Json)) : Framed fun w => objectOf (before ++ made w :: after) := by
  obtain ⟨name, _, ⟨frames, rfl⟩, rfl⟩ := hmade
  exact ⟨.field before name after :: frames, rfl⟩

/-- A list is got past when its entries are: the sample is in the first entry or behind it. -/
theorem ListReader.passes_succ {β : Type} {Entry : Nat → Text → β → Text → Prop} {close : Rune}
    {whole : List β → Json} {Reads : Nat → List β → Text → Json → Text → Prop} {Shape : (Json → β) → Prop}
    (hreader : ListReader Entry close whole Reads) (hclose : close ≠ .scalar '[' ∧ close ≠ .scalar '"')
    (hshape : ∀ made, Shape made → ∀ before after, Framed fun w => whole (before ++ made w :: after))
    {n : Nat} (hentrySettled : Settled Entry n) (hsettled : ListSettled whole Reads n)
    (hentry : EntryPasses Entry Shape n) (hlist : ListPasses Reads n) : ListPasses Reads (n + 1) := by
  intro p q acc v rest h
  -- an entry that ends within the sample is followed by a quote, and neither closes nor goes on
  cases hreader.step.mp h with
  | last hread hend =>
      rcases hentry _ _ _ _ hread with hpass | rfl
      · cases hpass with
        | before hall =>
            obtain ⟨tail, rfl, hfront⟩ := skipSpace_front hclose.1 hend
            exact .before fun z => hreader.step.mpr (.last (hall z) (hfront z))
        | around made hmade hall =>
            refine .around (fun w => whole (made w :: acc).reverse) ?_ fun y w extra hy => ?_
            · simp only [List.reverse_cons]
              exact hshape made hmade acc.reverse []
            · rw [Nat.add_right_comm]
              exact hreader.step.mpr (.last (hall y w extra hy) hend)
      · exact absurd (List.cons.inj hend).1.symm hclose.2
  | more hread hcomma hmore =>
      rcases hentry _ _ _ _ hread with hpass | rfl
      · cases hpass with
        | @before b _ hall =>
            obtain ⟨tail, rfl, hfront⟩ := skipSpace_front (by decide) hcomma
            rw [skipSpace_sample] at hmore
            refine (hlist _ _ _ _ _ hmore).step id (fun _ hmade => hmade) ?_
            intro extra z v rest hread
            have hfirst := hentrySettled _ _ _ (hall z) (n + extra) (Nat.le_add_right n extra)
            rw [← skipSpace_append rfl] at hread
            rw [Nat.add_right_comm]
            exact hreader.step.mpr (.more hfirst (hfront z) hread)
        | around made hmade hall =>
            obtain ⟨bs, rfl, hbehind⟩ := hsettled _ _ _ _ hmore
            refine .around (fun w => whole ((made w :: acc).reverse ++ bs)) ?_ fun y w extra hy => ?_
            · simp only [List.reverse_cons, List.append_assoc]
              exact hshape made hmade acc.reverse bs
            · have hrest := hbehind (made w :: acc) (n + extra) (Nat.le_add_right n extra)
              rw [Nat.add_right_comm]
              exact hreader.step.mpr (.more (hall y w extra hy) hcomma hrest)
      · cases hcomma

theorem passes (n : Nat) : EntryPasses ReadsValue Framed n ∧ ListPasses ReadsItems n ∧
    ListPasses ReadsFields n := by
  induction n with
  | zero =>
      refine ⟨fun p q v rest h => ?_, fun p q acc v rest h => ?_, fun p q acc v rest h => ?_⟩
      · cases h
      · cases h
      · cases h
  | succ n ih =>
      obtain ⟨hvalue, hitems, hfields⟩ := ih
      obtain ⟨hsettled, hitemsSettled, hfieldsSettled⟩ := settled n
      exact ⟨valuePasses_succ hitems hfields,
        itemsReader.passes_succ (by decide) (fun _ hmade => framed_item hmade) hsettled hitemsSettled
          hvalue hitems,
        fieldsReader.passes_succ (by decide) (fun _ hmade => framed_field hmade) (fieldSettled hsettled)
          hfieldsSettled (fieldPasses hvalue) hfields⟩

theorem sample_ne_nil (p q : Text) : p ++ (sample ++ q) ≠ [] :=
  List.append_ne_nil_of_right_ne_nil p (List.cons_ne_nil _ _)

/-- A document with the sample in it is a document with a hole: whatever stands for the sample, what is
around it stays. -/
theorem parse_within {p q : Text} {v : Json} (h : parse (p ++ (sample ++ q)) = .ok v) :
    ∃ frames, v = within frames sampleValue ∧ ∀ y w extra, Stands y w extra →
      extra + 8 ≤ 2 * y.length → parse (p ++ (y ++ q)) = .ok (within frames w) := by
  obtain ⟨hmark, rest, hscan, hend⟩ := parse_iff.mp h
  rw [skipSpace_sample] at hscan
  -- a value that ends in front of the sample or within it leaves something behind the document
  rcases (passes _).1 _ _ _ _ hscan with hpass | rfl
  · cases hpass with
    | before hall =>
        rw [skipSpace_sample] at hend
        exact absurd hend (sample_ne_nil _ _)
    | around made hmade hall =>
        obtain ⟨frames, rfl⟩ := hmade
        refine ⟨frames, rfl, fun y w extra hy hlength => ?_⟩
        have hread := hall y w extra hy
        obtain ⟨z, rfl⟩ := hy.opens
        refine parse_iff.mpr ⟨fun tail heq => ?_, rest, ?_, hend⟩
        · obtain ⟨tail, rfl, -⟩ := head_append heq (by decide)
          exact hmark _ rfl
        · rw [List.cons_append, skipSpace_append rfl]
          refine (settled _).1 _ _ _ hread _ ?_
          simp only [sample, List.length_append, List.length_cons, List.length_nil] at hlength ⊢
          omega
  · cases hend

/-! ### Arrays of texts -/

theorem readsValue_text (n : Nat) (t rest : Text) :
    ReadsValue (n + 1) (renderText t ++ rest) (.str (joined t)) rest := by
  have hscan := scanQuoted_renderText t rest
  rw [renderText_append]
  exact readsValue_iff.mpr (.quoted hscan)

theorem readsItems_texts (t : Text) (ts : List Text) (acc : List Json) (rest : Text) :
    ReadsItems (ts.length + 2) acc (renderText t ++ (renderItems (ts.map .str) ++ rest))
      (.arr (acc.reverse ++ (t :: ts).map fun t => .str (joined t))) rest := by
  -- every item takes one step of the budget
  induction ts generalizing t acc with
  | nil =>
      have hread := itemsReader.step.mpr
        (.last (readsValue_text 0 t (.scalar ']' :: rest)) rfl : ListStep _ _ _ _ acc _ _ _)
      rw [List.reverse_cons] at hread
      exact hread
  | cons u ts ih =>
      have hread := ih u (.str (joined t) :: acc)
      rw [List.reverse_cons, List.append_assoc] at hread
      refine itemsReader.step.mpr (.more (readsValue_text (ts.length + 1) t _) rfl ?_)
      change ReadsItems (ts.length + 2) _
        (skipSpace (.scalar ' ' :: (renderText u ++ renderItems (ts.map .str) ++ rest))) _ _
      rw [List.append_assoc]
      exact hread

theorem length_renderItems (ts : List Text) :
    4 * ts.length + 1 ≤ (renderItems (ts.map .str)).length := by
  induction ts with
  | nil => exact Nat.le_refl 1
  | cons t ts ih =>
      simp only [List.map_cons, renderItems, render, renderText, List.length_cons, List.length_append]
      omega

/-- An array of texts as it is written stands for the sample. -/
theorem stands_texts (t : Text) (ts : List Text) :
    Stands (arr ((t :: ts).map .str)).render (.arr ((t :: ts).map fun t => .str (joined t)))
      ts.length where
  opens := ⟨_, rfl⟩
  reads rest := by
    have hread := readsItems_texts t ts [] rest
    rw [← List.append_assoc] at hread
    refine readsValue_iff.mpr (.items (fun tail heq => ?_) hread)
    cases (List.cons.inj heq).1

/-- A document around an array of one empty text is one around every array of texts. -/
theorem parse_texts {p q : Text} {v : Json} (h : parse (p ++ (sample ++ q)) = .ok v) :
    ∃ frames, v = within frames sampleValue ∧ ∀ ts, ts ≠ [] →
      parse (p ++ ((arr (ts.map .str)).render ++ q)) =
        .ok (within frames (.arr (ts.map fun t => .str (joined t)))) := by
  obtain ⟨frames, rfl, hall⟩ := parse_within h
  refine ⟨frames, rfl, fun ts hts => ?_⟩
  cases ts with
  | nil => exact absurd rfl hts
  | cons t ts =>
      refine hall _ _ _ (stands_texts t ts) ?_
      have hlength := length_renderItems ts
      simp only [List.map_cons, render, renderText, List.length_cons, List.length_append]
      omega

end RemoteModel.Json
