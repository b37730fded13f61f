import Mathlib.Data.List.Forall2
import Mathlib.Data.List.Induction
import RemoteModel.Entries

/-!
Entries under distinct names.
-/

namespace RemoteModel.Entries

variable {α β : Type}

@[simp]
theorem get?_nil (name : Text) : get? ([] : Entries α) name = none := rfl

@[simp]
theorem get?_cons (n name : Text) (v : α) (es : Entries α) :
    get? ((n, v) :: es) name = if n = name then some v else es.get? name := rfl

@[simp]
theorem get?_append (es more : Entries α) (name : Text) :
    get? (es ++ more) name = (es.get? name).or (more.get? name) := by
  induction es with
  | nil => rfl
  | cons e es ih =>
      rw [List.cons_append, get?_cons, get?_cons]
      split
      next => rfl
      next => exact ih

theorem get?_mapValues (f : α → β) (es : Entries α) (name : Text) :
    (es.mapValues f).get? name = (es.get? name).map f := by
  induction es with
  | nil => rfl
  | cons e es ih =>
      change get? ((e.1, f e.2) :: mapValues f es) name = _
      rw [get?_cons, get?_cons, ih]
      split <;> rfl

@[simp]
theorem names_mapValues (f : α → β) (es : Entries α) : (es.mapValues f).names = es.names := by
  unfold mapValues names
  rw [List.map_map]
  rfl

theorem mem_of_get? {es : Entries α} {name : Text} {v : α} (h : es.get? name = some v) :
    (name, v) ∈ es := by
  induction es with
  | nil => cases h
  | cons e es ih =>
      rw [get?_cons] at h
      split at h
      next hname =>
        cases h
        cases hname
        exact List.mem_cons_self
      next => exact List.mem_cons_of_mem _ (ih h)

theorem get?_put_self (es : Entries α) (name : Text) (value : α) :
    (es.put name value).get? name = some value := by
  induction es with
  | nil => exact if_pos rfl
  | cons e es ih =>
      rw [put]
      split
      next => exact if_pos rfl
      next hne => rw [get?_cons, if_neg hne, ih]

theorem get?_put (es : Entries α) (n name : Text) (value : α) :
    (es.put n value).get? name = if n = name then some value else es.get? name := by
  induction es with
  | nil => rfl
  | cons e es ih =>
      rw [put]
      split
      next heq =>
        rw [get?_cons, get?_cons, heq]
        split <;> rfl
      next hne =>
        rw [get?_cons, get?_cons, ih]
        split
        next hname => rw [if_neg fun hn => hne (hname.trans hn.symm)]
        next => rfl

theorem names_put (es : Entries α) (n : Text) (value : α) :
    (es.put n value).names = if n ∈ es.names then es.names else es.names ++ [n] := by
  induction es with
  | nil => rfl
  | cons e es ih =>
      have hnames : names (e :: es) = e.1 :: names es := rfl
      rw [put, hnames]
      split
      next heq =>
        rw [heq, if_pos List.mem_cons_self]
        rfl
      next hne =>
        have hmem : n ∈ e.1 :: names es ↔ n ∈ names es :=
          List.mem_cons.trans (or_iff_right (Ne.symm hne))
        change e.1 :: names (put es n value) = _
        rw [ih]
        simp only [hmem]
        split <;> rfl

/-- Names that come new stand behind the others. -/
theorem find?_names_putAll (p : Text → Bool) (es more : Entries α) :
    (es.putAll more).names.find? p = (es.names.find? p).or (more.names.find? p) := by
  induction more generalizing es with
  | nil => exact Option.or_none.symm
  | cons e more ih =>
      have hrest : names (e :: more) = [e.1] ++ names more := rfl
      change ((es.put e.1 e.2).putAll more).names.find? p = _
      rw [ih, names_put, hrest, List.find?_append, ← Option.or_assoc]
      congr 1
      split
      next hname =>
        by_cases hp : p e.1 = true
        · have hsome : (es.names.find? p).isSome = true := List.find?_isSome.mpr ⟨e.1, hname, hp⟩
          rw [Option.or_of_isSome hsome]
        · rw [List.find?_cons_of_neg hp, List.find?_nil, Option.or_none]
      next => rw [List.find?_append]

/-- A later value goes before the values that were there. -/
theorem get?_putAll (es more : Entries α) (name : Text) :
    (es.putAll more).get? name = ((ofPairs more).get? name).or (es.get? name) := by
  induction more using List.reverseRecOn with
  | nil => rfl
  | append_singleton more e ih =>
      have hlast (es : Entries α) : es.putAll (more ++ [e]) = (es.putAll more).put e.1 e.2 :=
        List.foldl_append
      unfold ofPairs at ih ⊢
      rw [hlast, hlast, get?_put, get?_put, ih]
      split <;> rfl

theorem get?_putAll_of_not_mem {es more : Entries α} {name : Text} (hname : name ∉ more.names) :
    (es.putAll more).get? name = es.get? name := by
  induction more generalizing es with
  | nil => rfl
  | cons e more ih =>
      obtain ⟨hne, hrest⟩ := List.ne_and_not_mem_of_not_mem_cons hname
      change ((es.put e.1 e.2).putAll more).get? name = _
      rw [ih hrest, get?_put, if_neg (Ne.symm hne)]

theorem put_of_not_mem {es : Entries α} {name : Text} (hname : name ∉ es.names) (value : α) :
    es.put name value = es ++ [(name, value)] := by
  induction es with
  | nil => rfl
  | cons e es ih =>
      obtain ⟨hne, hrest⟩ := List.ne_and_not_mem_of_not_mem_cons hname
      rw [put, if_neg (Ne.symm hne), ih hrest]
      rfl

theorem nodup_putAll {es : Entries α} (h : es.names.Nodup) (more : Entries α) :
    (es.putAll more).names.Nodup := by
  induction more generalizing es with
  | nil => exact h
  | cons e more ih =>
      refine ih ?_
      rw [names_put]
      split
      next => exact h
      next hname =>
        refine List.nodup_append.mpr ⟨h, List.pairwise_singleton _ _, fun n hn m hm => ?_⟩
        rw [List.mem_singleton.mp hm]
        rintro rfl
        exact hname hn

theorem mem_of_mem_put {es : Entries α} {name : Text} {value : α} {e : Text × α}
    (he : e ∈ es.put name value) : e ∈ es ∨ e = (name, value) := by
  induction es with
  | nil => exact .inr (List.mem_singleton.mp he)
  | cons f es ih =>
      rw [put] at he
      split at he
      next =>
        rcases List.mem_cons.mp he with rfl | he
        · exact .inr rfl
        · exact .inl (List.mem_cons_of_mem _ he)
      next =>
        rcases List.mem_cons.mp he with rfl | he
        · exact .inl List.mem_cons_self
        · exact (ih he).imp_left (List.mem_cons_of_mem _)

theorem mem_of_mem_putAll {es more : Entries α} {e : Text × α} (he : e ∈ es.putAll more) :
    e ∈ es ∨ e ∈ more := by
  induction more generalizing es with
  | nil => exact .inl he
  | cons f more ih =>
      rcases ih he with he | he
      · refine (mem_of_mem_put he).imp_right ?_
        rintro rfl
        exact List.mem_cons_self
      · exact .inr (List.mem_cons_of_mem _ he)

theorem putAll_of_nodup {es more : Entries α} (h : (es.names ++ more.names).Nodup) :
    es.putAll more = es ++ more := by
  induction more generalizing es with
  | nil => exact (List.append_nil es).symm
  | cons e more ih =>
      have hname : e.1 ∉ es.names := fun hmem =>
        (List.nodup_append.mp h).2.2 _ hmem _ List.mem_cons_self rfl
      change (es.put e.1 e.2).putAll more = _
      rw [put_of_not_mem hname]
      have hnames : ((es ++ [(e.1, e.2)]).names ++ names more).Nodup := by
        simpa [names] using h
      rw [ih hnames, List.append_assoc]
      rfl

theorem get?_of_mem {es : Entries α} (h : es.names.Nodup) {name : Text} {v : α}
    (hmem : (name, v) ∈ es) : es.get? name = some v := by
  induction es with
  | nil => cases hmem
  | cons e es ih =>
      obtain ⟨hfresh, hrest⟩ := List.nodup_cons.mp h
      rcases List.mem_cons.mp hmem with rfl | hmem
      · exact if_pos rfl
      · have hne : e.1 ≠ name := fun heq => hfresh (heq ▸ List.mem_map_of_mem (f := Prod.fst) hmem)
        rw [get?_cons, if_neg hne, ih hrest hmem]

theorem get?_filter (p : Text → Bool) (es : Entries α) (name : Text) :
    get? (es.filter fun e => p e.1) name = if p name then es.get? name else none := by
  induction es with
  | nil => simp
  | cons e es ih =>
      obtain ⟨n, v⟩ := e
      by_cases hname : n = name
      · subst hname
        cases hp : p n <;> simp [hp, ih]
      · cases hp : p n <;> simp [hp, ih, hname]

/-- The same names in the same order, with values that are related. -/
def Related (R : Text → α → β → Prop) (es : Entries α) (es' : Entries β) : Prop :=
  List.Forall₂ (fun e e' => e.1 = e'.1 ∧ R e.1 e.2 e'.2) es es'

theorem Related.names {R : Text → α → β → Prop} {es : Entries α} {es' : Entries β}
    (h : Related R es es') : es.names = es'.names := by
  induction h with
  | nil => rfl
  | cons he _ ih => exact List.cons_eq_cons.mpr ⟨he.1, ih⟩

theorem Related.get? {R : Text → α → β → Prop} {es : Entries α} {es' : Entries β}
    (h : Related R es es') (name : Text) : Option.Rel (R name) (es.get? name) (es'.get? name) := by
  induction h with
  | nil => exact .none
  | @cons e e' _ _ he _ ih =>
      obtain ⟨hname, hvalue⟩ := he
      rw [get?_cons, get?_cons, ← hname]
      split
      next hhere => exact .some (hhere ▸ hvalue)
      next => exact ih

theorem ofPairs_of_nodup {pairs : List (Text × α)} (h : (names pairs).Nodup) :
    ofPairs pairs = pairs :=
  @putAll_of_nodup α [] pairs h

end RemoteModel.Entries
