import Mathlib.Data.List.Sort
import RemoteModel.Http.Headers
import RemoteModel.Proofs.Entries
import RemoteModel.Proofs.Text.Digits

/-!
Tables of headers. Neither the order of the headers nor the case of their names matters when they are looked
up, and setting headers once more puts the new values where the old ones were.
-/

namespace RemoteModel

namespace Text

theorem le_total (s t : Text) : le s t = true ∨ le t s = true := by
  induction s generalizing t with
  | nil => simp [le]
  | cons a s ih =>
      cases t with
      | nil => simp [le]
      | cons b t =>
          by_cases hab : a = b
          · subst hab
            simpa [le] using ih t
          · have hcode : a.code ≠ b.code := fun h => hab (by rw [← Rune.ofCode_code a, h, Rune.ofCode_code])
            simp only [le, if_neg hab, if_neg (Ne.symm hab), decide_eq_true_eq]
            omega

theorem le_trans {s t u : Text} (hst : le s t = true) (htu : le t u = true) : le s u = true := by
  induction s generalizing t u with
  | nil => rfl
  | cons a s ih =>
      cases t with
      | nil => simp [le] at hst
      | cons b t =>
          cases u with
          | nil => simp [le] at htu
          | cons c u =>
              simp only [le] at hst htu ⊢
              by_cases hab : a = b <;> by_cases hbc : b = c
              · subst hab hbc
                simp only [if_true] at hst htu ⊢
                exact ih hst htu
              · subst hab
                rwa [if_neg hbc] at htu ⊢
              · subst hbc
                rwa [if_neg hab] at hst ⊢
              · simp only [if_neg hab, if_neg hbc, decide_eq_true_eq] at hst htu
                have hac : a ≠ c := by
                  rintro rfl
                  omega
                simp only [if_neg hac, decide_eq_true_eq]
                omega

theorem le_antisymm {s t : Text} (hst : le s t = true) (hts : le t s = true) : s = t := by
  induction s generalizing t with
  | nil =>
      cases t with
      | nil => rfl
      | cons => simp [le] at hts
  | cons a s ih =>
      cases t with
      | nil => simp [le] at hst
      | cons b t =>
          simp only [le] at hst hts
          by_cases hab : a = b
          · subst hab
            simp only [if_true] at hst hts
            rw [ih hst hts]
          · simp only [if_neg hab, if_neg (Ne.symm hab), decide_eq_true_eq] at hst hts
            omega

end Text

theorem Entries.has_iff {es : Entries Text} {name : Text} : es.has name = true ↔ name ∈ es.map Prod.fst := by
  induction es with
  | nil => simp [has]
  | cons e es ih =>
      rw [has] at ih ⊢
      rw [get?_cons, List.map_cons, List.mem_cons, ← ih]
      split
      next hname => simp [hname]
      next hname => simp [Ne.symm hname]

/-- Entries under distinct names come out alike when they are put in order, whatever order they had. -/
theorem Entries.mergeSort_perm_eq {es es' : Entries Text} (hperm : es.Perm es')
    (hnodup : (es.map Prod.fst).Nodup) :
    es.mergeSort (fun a b => Text.le a.1 b.1) = es'.mergeSort (fun a b => Text.le a.1 b.1) := by
  have hsorted (l : Entries Text) :
      (l.mergeSort fun a b => Text.le a.1 b.1).Pairwise fun a b => Text.le a.1 b.1 = true := by
    apply List.pairwise_mergeSort
    · intro a b c
      exact Text.le_trans
    · intro a b
      simpa using Text.le_total a.1 b.1
  have hall := ((List.mergeSort_perm es fun a b => Text.le a.1 b.1).trans hperm).trans
    (List.mergeSort_perm es' fun a b => Text.le a.1 b.1).symm
  refine List.Perm.eq_of_pairwise (fun a b ha hb hab hba => ?_) (hsorted es) (hsorted es') hall
  have ha' : a ∈ es := (List.mergeSort_perm es _).mem_iff.mp ha
  have hb' : b ∈ es := hperm.mem_iff.mpr ((List.mergeSort_perm es' _).mem_iff.mp hb)
  exact List.inj_on_of_nodup_map hnodup ha' hb' (Text.le_antisymm hab hba)

namespace Headers

variable {h h' : Headers} {name other value : Text} {q : Text → Bool}

theorem ext_entries (hentries : h.entries = h'.entries) : h = h' := by
  cases h
  cases h'
  cases hentries
  rfl

/-! ### Lookups -/

theorem find?_putIn (name value key : Text) (es : Entries Text) :
    (putIn name value es).find? (fun e => e.1.lower = key) =
      if name.lower = key then some (name, value) else es.find? (fun e => e.1.lower = key) := by
  induction es with
  | nil => by_cases hkey : name.lower = key <;> simp [putIn, hkey]
  | cons e es ih =>
      obtain ⟨n, v⟩ := e
      by_cases hn : n.lower = name.lower
      · by_cases hkey : name.lower = key <;> simp [putIn, hn, hkey]
      · by_cases hkey : n.lower = key
        · subst hkey
          simp [putIn, hn, Ne.symm hn]
        · simp [putIn, hn, hkey, ih]

@[simp]
theorem get?_put (h : Headers) (name value other : Text) :
    (h.put name value).get? other = if name.lower = other.lower then some value else h.get? other := by
  simp only [get?, put, find?_putIn]
  split <;> rfl

theorem find?_filter (q : Text → Bool) (key : Text) (es : Entries Text) :
    (es.filter fun e => q e.1.lower).find? (fun e => e.1.lower = key) =
      if q key then es.find? (fun e => e.1.lower = key) else none := by
  induction es with
  | nil => simp
  | cons e es ih =>
      by_cases hkey : e.1.lower = key
      · subst hkey
        cases hq : q e.1.lower <;> simp [hq, ih]
      · cases hq : q e.1.lower <;> simp [hq, hkey, ih]

@[simp]
theorem get?_filter (h : Headers) (q : Text → Bool) (name : Text) :
    (h.filter fun n => q n.lower).get? name = if q name.lower then h.get? name else none := by
  simp only [get?, filter, find?_filter]
  split <;> rfl

theorem mem_entries_of_get? (hvalue : h.get? name = some value) :
    ∃ n, n.lower = name.lower ∧ (n, value) ∈ h.entries := by
  obtain ⟨e, hfind, rfl⟩ := Option.map_eq_some_iff.mp hvalue
  exact ⟨e.1, by simpa using List.find?_some hfind, List.mem_of_find?_eq_some hfind⟩

theorem get?_of_mem_entries (hmem : (name, value) ∈ h.entries) : h.get? name = some value := by
  have hthere : (h.entries.find? fun e => e.1.lower = name.lower).isSome := by
    simpa using ⟨name, ⟨value, hmem⟩, rfl⟩
  obtain ⟨e, hfind⟩ := Option.isSome_iff_exists.mp hthere
  have hsame : e.1.lower = name.lower := by simpa using List.find?_some hfind
  have heq : e = (name, value) :=
    List.inj_on_of_nodup_map h.nodup (List.mem_of_find?_eq_some hfind) hmem hsame
  simp [get?, hfind, heq]

theorem get?_eq_none_iff : h.get? name = none ↔ name.lower ∉ keysOf h.entries := by
  simp [get?, keysOf]

/-! ### Tables that agree -/

def small (h : Headers) : Entries Text := h.entries.map fun e => (e.1.lower, e.2)

theorem nodup_small (h : Headers) : (h.small.map Prod.fst).Nodup := by
  have hkeys : h.small.map Prod.fst = keysOf h.entries := by
    simp [small, keysOf]
  exact hkeys ▸ h.nodup

theorem mem_small {key : Text} : (key, value) ∈ h.small ↔ ∃ n, n.lower = key ∧ h.get? n = some value := by
  simp only [small, List.mem_map, Prod.mk.injEq]
  constructor
  · rintro ⟨⟨n, v⟩, hmem, rfl, rfl⟩
    exact ⟨n, rfl, get?_of_mem_entries hmem⟩
  · rintro ⟨n, rfl, hvalue⟩
    obtain ⟨n', hsame, hmem⟩ := mem_entries_of_get? hvalue
    exact ⟨(n', value), hmem, hsame, rfl⟩

theorem small_perm (hsame : ∀ name, h.get? name = h'.get? name) : h.small.Perm h'.small := by
  have hnodup (g : Headers) : g.small.Nodup := g.nodup_small.of_map
  rw [List.perm_ext_iff_of_nodup (hnodup h) (hnodup h')]
  rintro ⟨key, value⟩
  simp [mem_small, hsame]

/-! ### Setting headers -/

theorem entries_put_of_absent (hname : name.lower ∉ keysOf h.entries) :
    (h.put name value).entries = h.entries ++ [(name, value)] := by
  have hput (es : Entries Text) (hes : name.lower ∉ keysOf es) :
      putIn name value es = es ++ [(name, value)] := by
    induction es with
    | nil => rfl
    | cons e es ih =>
        simp only [keysOf, List.map_cons, List.mem_cons, not_or] at hes
        rw [putIn, if_neg (Ne.symm hes.1), ih hes.2, List.cons_append]
  exact hput h.entries hname

theorem entries_put_of_present (hname : name.lower ∈ keysOf h.entries) :
    (h.put name value).entries =
      h.entries.map fun e => if e.1.lower = name.lower then (name, value) else e := by
  have hput (es : Entries Text) (hes : name.lower ∈ keysOf es) (hnodup : (keysOf es).Nodup) :
      putIn name value es = es.map fun e => if e.1.lower = name.lower then (name, value) else e := by
    induction es with
    | nil => simp [keysOf] at hes
    | cons e es ih =>
        simp only [keysOf, List.map_cons, List.mem_cons, List.nodup_cons] at hes hnodup
        by_cases hsame : e.1.lower = name.lower
        · have hrest : ∀ d ∈ es, d.1.lower ≠ name.lower := by
            intro d hd heq
            apply hnodup.1
            rw [hsame, ← heq]
            exact List.mem_map_of_mem hd
          have hkept : (es.map fun d => if d.1.lower = name.lower then (name, value) else d) = es := by
            conv_rhs => rw [← List.map_id es]
            exact List.map_congr_left fun d hd => if_neg (hrest d hd)
          rw [putIn, if_pos hsame, List.map_cons, if_pos hsame, hkept]
        · have hrest := hes.resolve_left (Ne.symm hsame)
          rw [putIn, if_neg hsame, List.map_cons, if_neg hsame, ih hrest hnodup.2]
  exact hput h.entries hname h.nodup

theorem put_self (hmem : (name, value) ∈ h.entries) : h.put name value = h := by
  have hname : name.lower ∈ keysOf h.entries := List.mem_map_of_mem hmem
  apply ext_entries
  rw [entries_put_of_present hname]
  conv_rhs => rw [← List.map_id h.entries]
  refine List.map_congr_left fun e he => ?_
  split
  next hsame => exact (List.inj_on_of_nodup_map h.nodup he hmem hsame).symm
  next => rfl

theorem put_put (h : Headers) (name value value' : Text) :
    (h.put name value).put name value' = h.put name value' := by
  apply ext_entries
  have hthere : name.lower ∈ keysOf (h.put name value).entries :=
    (mem_keysOf_putIn name value name.lower h.entries).mpr (.inl rfl)
  rw [entries_put_of_present hthere]
  by_cases hname : name.lower ∈ keysOf h.entries
  · rw [entries_put_of_present hname, entries_put_of_present hname, List.map_map]
    refine List.map_congr_left fun e _ => ?_
    by_cases hsame : e.1.lower = name.lower <;> simp [hsame]
  · have hother : ∀ e ∈ h.entries, e.1.lower ≠ name.lower := fun e he hsame =>
      hname (hsame ▸ List.mem_map_of_mem he)
    have hkept : (h.entries.map fun e => if e.1.lower = name.lower then (name, value') else e) =
        h.entries := by
      conv_rhs => rw [← List.map_id h.entries]
      exact List.map_congr_left fun e he => if_neg (hother e he)
    rw [entries_put_of_absent hname, entries_put_of_absent hname, List.map_append, hkept]
    simp

theorem put_comm (hname : name.lower ∈ keysOf h.entries) (hne : other.lower ≠ name.lower)
    (value value' : Text) :
    (h.put other value').put name value = (h.put name value).put other value' := by
  apply ext_entries
  have hthere : name.lower ∈ keysOf (h.put other value').entries :=
    (mem_keysOf_putIn other value' name.lower h.entries).mpr (.inr hname)
  rw [entries_put_of_present hthere]
  by_cases hother : other.lower ∈ keysOf h.entries
  · have hother' : other.lower ∈ keysOf (h.put name value).entries :=
      (mem_keysOf_putIn name value other.lower h.entries).mpr (.inr hother)
    rw [entries_put_of_present hother, entries_put_of_present hother', entries_put_of_present hname,
      List.map_map, List.map_map]
    refine List.map_congr_left fun e _ => ?_
    by_cases hsame : e.1.lower = other.lower
    · simp [hsame, hne]
    · by_cases hsame' : e.1.lower = name.lower <;> simp [hsame, hsame', Ne.symm hne]
  · have hother' : other.lower ∉ keysOf (h.put name value).entries := fun hmem =>
      ((mem_keysOf_putIn name value other.lower h.entries).mp hmem).elim hne hother
    rw [entries_put_of_absent hother, entries_put_of_absent hother', entries_put_of_present hname,
      List.map_append]
    simp [hne]

@[simp]
theorem putAll_cons (h : Headers) (e : Text × Text) (es : Entries Text) :
    h.putAll (e :: es) = (h.put e.1 e.2).putAll es := rfl

theorem putAll_append (h : Headers) (es more : Entries Text) :
    h.putAll (es ++ more) = (h.putAll es).putAll more :=
  List.foldl_append

theorem putAll_self {es : Entries Text} (hes : ∀ e ∈ es, e ∈ h.entries) : h.putAll es = h := by
  induction es with
  | nil => rfl
  | cons e es ih =>
      rw [putAll_cons, put_self (hes e List.mem_cons_self)]
      exact ih fun d hd => hes d (List.mem_cons_of_mem _ hd)

theorem putAll_put {es : Entries Text} (hname : name.lower ∈ keysOf h.entries)
    (hes : ∀ e ∈ es, e.1.lower ≠ name.lower) (value : Text) :
    (h.putAll es).put name value = (h.put name value).putAll es := by
  induction es generalizing h with
  | nil => rfl
  | cons e es ih =>
      have hthere : name.lower ∈ keysOf (h.put e.1 e.2).entries :=
        (mem_keysOf_putIn e.1 e.2 name.lower h.entries).mpr (.inr hname)
      rw [putAll_cons, putAll_cons, ih hthere fun d hd => hes d (List.mem_cons_of_mem _ hd),
        put_comm hname (hes e List.mem_cons_self)]

/-- Of headers that are set twice nothing is left of the first time. -/
theorem putAll_putAll {es es' : Entries Text} (hnames : es.names = es'.names)
    (hnodup : (keysOf es).Nodup) : (h.putAll es).putAll es' = h.putAll es' := by
  induction es generalizing es' h with
  | nil =>
      cases es' with
      | nil => rfl
      | cons => cases hnames
  | cons e es ih =>
      cases es' with
      | nil => cases hnames
      | cons e' es' =>
          obtain ⟨hname, hrest⟩ : e.1 = e'.1 ∧ Entries.names es = Entries.names es' :=
            List.cons.inj hnames
          simp only [keysOf, List.map_cons, List.nodup_cons] at hnodup
          have hthere : e.1.lower ∈ keysOf (h.put e.1 e.2).entries :=
            (mem_keysOf_putIn e.1 e.2 e.1.lower h.entries).mpr (.inl rfl)
          have hothers : ∀ d ∈ es, d.1.lower ≠ e.1.lower := fun d hd hsame =>
            hnodup.1 (hsame ▸ List.mem_map_of_mem hd)
          rw [putAll_cons, putAll_cons, putAll_cons, ← hname, putAll_put hthere hothers, put_put]
          exact ih hrest hnodup.2

/-- Headers that are set alike in two tables leave a name alike on which the tables agreed. -/
theorem get?_putAll_congr {es : Entries Text} (hsame : h.get? name = h'.get? name) :
    (h.putAll es).get? name = (h'.putAll es).get? name := by
  induction es generalizing h h' with
  | nil => exact hsame
  | cons e es ih =>
      rw [putAll_cons, putAll_cons]
      apply ih
      rw [get?_put, get?_put, hsame]

theorem get?_putAll_absent {es : Entries Text} (hes : ∀ e ∈ es, e.1.lower ≠ name.lower) :
    (h.putAll es).get? name = h.get? name := by
  induction es generalizing h with
  | nil => rfl
  | cons e es ih =>
      rw [putAll_cons, ih fun d hd => hes d (List.mem_cons_of_mem _ hd), get?_put,
        if_neg (hes e List.mem_cons_self)]

theorem get?_putAll_mem {es : Entries Text} {e : Text × Text} (hnodup : (keysOf es).Nodup) (he : e ∈ es) :
    (h.putAll es).get? e.1 = some e.2 := by
  induction es generalizing h with
  | nil => cases he
  | cons d es ih =>
      simp only [keysOf, List.map_cons, List.nodup_cons] at hnodup
      rcases List.mem_cons.mp he with rfl | he
      · have hothers : ∀ d ∈ es, d.1.lower ≠ e.1.lower := fun d hd hsame =>
          hnodup.1 (hsame ▸ List.mem_map_of_mem hd)
        rw [putAll_cons, get?_putAll_absent hothers, get?_put, if_pos rfl]
      · exact ih hnodup.2 he

theorem filter_put (hname : q name.lower = false) (value : Text) :
    ((h.put name value).filter fun n => q n.lower) = h.filter fun n => q n.lower := by
  apply ext_entries
  have hfilter (es : Entries Text) :
      ((putIn name value es).filter fun e => q e.1.lower) = es.filter fun e => q e.1.lower := by
    induction es with
    | nil => simp [putIn, hname]
    | cons e es ih =>
        obtain ⟨n, v⟩ := e
        by_cases hsame : n.lower = name.lower
        · simp [putIn, hsame, hname]
        · cases hn : q n.lower <;> simp [putIn, hsame, hn, ih]
  exact hfilter h.entries

/-- Headers of other names stay what they are, where they are. -/
theorem filter_putAll {es : Entries Text} (hes : ∀ e ∈ es, q e.1.lower = false) :
    ((h.putAll es).filter fun n => q n.lower) = h.filter fun n => q n.lower := by
  induction es generalizing h with
  | nil => rfl
  | cons e es ih =>
      rw [putAll_cons, ih fun d hd => hes d (List.mem_cons_of_mem _ hd),
        filter_put (hes e List.mem_cons_self)]

end Headers

end RemoteModel
