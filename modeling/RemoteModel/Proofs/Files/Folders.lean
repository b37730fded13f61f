import RemoteModel.Proofs.Files.Found

/-!
Making folders. Whether it succeeds or not, the folders that come new hang in a row below one that was
there, and nothing lies below the last of them. Where a path steps back by two dots only out of
folders that are there, what a longer path did not name before, it does not name afterwards.
-/

namespace RemoteModel

namespace Tree

/-- Every folder that a path leaves again by two dots is there. -/
def Grounds (t : Tree) (p : Path) : Prop :=
  ∀ front back, p.parts = front ++ twoDots :: back → t.hasFolder ⟨p.anchor, front⟩ = true

theorem grounds_of_not_mem {t : Tree} {p : Path} (h : twoDots ∉ p.parts) : t.Grounds p :=
  fun front back hparts => absurd (by simp [hparts]) h

theorem Grounds.of_append {t : Tree} {anchor : Anchor} {front back : List Text}
    (h : t.Grounds ⟨anchor, front ++ back⟩) : t.Grounds ⟨anchor, front⟩ := by
  intro head tail hparts
  obtain rfl : front = head ++ twoDots :: tail := hparts
  exact h head (tail ++ back) (by simp)

theorem Grounds.snoc {t : Tree} {anchor : Anchor} {parts : List Text} {name : Text}
    (h : t.Grounds ⟨anchor, parts⟩) (hname : name ≠ twoDots) :
    t.Grounds ⟨anchor, parts ++ [name]⟩ := by
  intro front back hparts
  rcases back.eq_nil_or_concat with rfl | ⟨back, last, rfl⟩
  · obtain ⟨_, hlast⟩ := List.append_inj' (show parts ++ [name] = front ++ [twoDots] from hparts) rfl
    exact absurd (List.singleton_inj.mp hlast) hname
  · rw [List.concat_eq_append, ← List.cons_append, ← List.append_assoc] at hparts
    obtain ⟨hfront, _⟩ := List.append_inj' hparts rfl
    exact h front back hfront

theorem Grounds.of_extends {t t' : Tree} {p : Path} (h : t.Grounds p) (ht : t'.Extends t) :
    t'.Grounds p :=
  fun front back hparts => ht.hasFolder (h front back hparts)

theorem make_eq_ok {t t' : Tree} {p : Path} {node : Node} (h : t.make p node = .ok t') :
    ∃ place, t.locate false p = .ok place ∧ t.node? place = none ∧
      ∀ q, t'.node? q = if q = place then some node else t.node? q := by
  unfold make at h
  split at h
  next => simp at h
  next place hplace =>
    split at h
    next => simp at h
    next hfree =>
      cases h
      exact ⟨place, hplace, hfree, node?_put t _ _⟩

theorem extends_of_free {t t' : Tree} {free : Place} {new : Node} (hfree : t.node? free = none)
    (hnode : ∀ q, t'.node? q = if q = free then some new else t.node? q) : t'.Extends t := by
  intro place node hplace
  rw [hnode, if_neg]
  · exact hplace
  · rintro rfl
    rw [hfree] at hplace
    exact absurd hplace (by simp)

theorem locate_twoDots {t : Tree} {toEnd : Bool} {anchor : Anchor} {front : List Text}
    {folder place : Place} (hfront : t.locate true ⟨anchor, front⟩ = .ok folder)
    (hfolder : t.node? folder = some .folder)
    (h : t.locate toEnd ⟨anchor, front ++ [twoDots]⟩ = .ok place) :
    t.node? place = some .folder := by
  obtain ⟨_, hroute⟩ := locate_eq_ok_iff.mp h
  obtain ⟨_, hroute'⟩ := locate_eq_ok_iff.mp hfront
  rw [hroute.unique (hroute'.append_back hfolder)]
  exact node?_dropLast (by simp [hfolder])

theorem not_names_of_missing {t : Tree} {anchor : Anchor} {front : List Text} {name : Text}
    {folder : Place} (rest : List Text) (hfront : t.locate true ⟨anchor, front⟩ = .ok folder)
    (hfolder : t.node? folder = some .folder) (hname : name ≠ twoDots)
    (hmissing : t.node? (folder.along [name]) = none) : ¬t.Names ⟨anchor, front ++ name :: rest⟩ := by
  have hplace {place : Place} (h : t.locate true ⟨anchor, front ++ [name]⟩ = .ok place) :
      t.node? place = none := by
    rw [locate_append hfront hfolder hname (by simp [hmissing]) h]
    exact hmissing
  by_cases hrest : rest = []
  · subst hrest
    intro hnames
    obtain ⟨place, hlocate, hnode⟩ := names_iff.mp hnames
    exact hnode (hplace hlocate)
  · rw [← List.singleton_append, ← List.append_assoc]
    refine not_names_append hrest ?_
    by_contra hfolder'
    obtain ⟨place, hlocate, hnode⟩ := hasFolder_iff.mp (by simpa using hfolder')
    rw [hplace hlocate] at hnode
    exact absurd hnode (by simp)

/-- A tree with folders made in a row below a place. -/
inductive Grown (t : Tree) (base : Place) : List Text → Tree → Prop
  | start : Grown t base [] t
  | more {names : List Text} {name : Text} {t' t'' : Tree} :
      Grown t base names t' → t'.node? ((base.along names).along [name]) = none →
      (∀ q, t''.node? q =
        if q = (base.along names).along [name] then some .folder else t'.node? q) →
      Grown t base (names ++ [name]) t''

namespace Grown

variable {t t' : Tree} {base : Place} {names : List Text}

theorem keeps (h : Grown t base names t') : t'.Extends t := by
  induction h with
  | start => exact .refl t
  | more _ hfree hnode ih => exact (extends_of_free hfree hnode).trans ih

theorem eq_of_nil (h : Grown t base [] t') : t' = t := by
  generalize hnames : ([] : List Text) = names at h
  cases h with
  | start => rfl
  | more => simp at hnames

theorem folder (h : Grown t base names t') (hbase : t.node? base = some .folder) :
    t'.node? (base.along names) = some .folder := by
  cases h with
  | start => simpa using hbase
  | more _ _ hnode => rw [hnode, if_pos (Place.along_append ..)]

theorem node?_cases (h : Grown t base names t') {q : Place} {node : Node}
    (hq : t'.node? q = some node) :
    t.node? q = some node ∨ (node = .folder ∧ q <+: base.along names) := by
  induction h with
  | start => exact .inl hq
  | @more names name _ _ _ _ hnode ih =>
      rw [hnode] at hq
      rw [Place.along_append]
      by_cases heq : q = (base.along names).along [name]
      · rw [if_pos heq] at hq
        exact .inr ⟨(Option.some.inj hq).symm, heq ▸ List.prefix_refl q⟩
      · rw [if_neg heq] at hq
        refine (ih hq).imp_right fun ⟨hfolder, hunder⟩ => ⟨hfolder, ?_⟩
        exact hunder.trans (Place.prefix_along ..)

theorem first_free (h : Grown t base names t') (hnames : names ≠ []) :
    ∃ first rest, names = first :: rest ∧ t.node? (base.along [first]) = none := by
  induction h with
  | start => exact absurd rfl hnames
  | @more names name t' _ hgrown hfree _ ih =>
      by_cases hn : names = []
      · subst hn
        obtain rfl := hgrown.eq_of_nil
        exact ⟨name, [], rfl, by simpa using hfree⟩
      · obtain ⟨first, rest, rfl, hfirst⟩ := ih hn
        exact ⟨first, rest ++ [name], rfl, hfirst⟩

theorem free (h : Grown t base names t') (hnames : names ≠ []) :
    t.node? (base.along names) = none := by
  obtain ⟨first, rest, rfl, hfirst⟩ := h.first_free hnames
  by_contra hnode
  refine node?_of_node?_append (base.along [first]) (rest.map FileName.settled) ?_ hfirst
  rwa [← List.singleton_append, Place.along_append] at hnode

theorem beyond (h : Grown t base names t') (hnames : names ≠ []) {below : Place}
    (hbelow : below ≠ []) : t'.node? (base.along names ++ below) = none := by
  by_contra hnode
  obtain ⟨node, hnode⟩ := Option.ne_none_iff_exists'.mp hnode
  rcases h.node?_cases hnode with hold | ⟨_, hunder⟩
  · refine node?_of_node?_append _ below ?_ (h.free hnames)
    rw [hold]
    simp
  · have hlength := hunder.length_le
    have hpos := List.length_pos_iff.mpr hbelow
    simp only [List.length_append] at hlength
    omega

theorem locate (h : Grown t base names t') {anchor : Anchor} {front : List Text} (toEnd : Bool)
    (hfront : t.locate true ⟨anchor, front⟩ = .ok base) (hbase : t.node? base = some .folder)
    (hnames : names ≠ []) (hsteps : ∀ name ∈ names, IsStep name)
    (hfits : Path.Fits ⟨anchor, front ++ names⟩) :
    t'.locate toEnd ⟨anchor, front ++ names⟩ = .ok (base.along names) := by
  refine locate_eq_ok_iff.mpr ⟨hfits, ?_⟩
  induction h generalizing toEnd with
  | start => exact absurd rfl hnames
  | @more names name t' t'' hgrown hfree hnode ih =>
      have hlast : t''.node? ((base.along names).along [name]) = some .folder := by
        rw [hnode, if_pos rfl]
      have hext : t''.Extends t' := extends_of_free hfree hnode
      have hbefore : t'.Route true (linkLimit + 1) [] (front ++ names) (base.along names) := by
        by_cases hn : names = []
        · subst hn
          obtain rfl := hgrown.eq_of_nil
          simpa using (locate_eq_ok_iff.mp hfront).2
        · rw [← List.append_assoc] at hfits
          exact ih true hn (fun n hn => hsteps n (by simp [hn])) hfits.of_append
      have hfolder := hgrown.folder hbase
      have hroute := hbefore.transfer (fun q node hq _ => hext q node hq)
        (fun _ target hlink => by simp [hext _ _ hfolder] at hlink)
      have happend : t''.Route toEnd (linkLimit + 1) [] (front ++ names ++ [name])
          ((base.along names).along [name]) := hroute.append (hext _ _ hfolder)
        (hsteps name (by simp)) (fun _ target hlink => nomatch hlast.symm.trans hlink)
      rw [Place.along_append]
      simpa using happend

end Grown

/-- What comes of making the folders of a path: nothing, or a row of them, which lacks the last ones
if it fails. -/
inductive Laid (t : Tree) (p : Path) : Bool → Tree → Prop
  | unchanged {done : Bool} : (done = true → t.hasFolder p = true) → Laid t p done t
  | grown {done : Bool} {front made missing : List Text} {base : Place} {t' : Tree} :
      p.parts = front ++ made ++ missing → made ≠ [] → (done = true ↔ missing = []) →
      twoDots ∉ made ++ missing → (∀ name ∈ made, IsStep name) →
      Path.Fits ⟨p.anchor, front ++ made⟩ → t.locate true ⟨p.anchor, front⟩ = .ok base →
      t.node? base = some .folder → Grown t base made t' → Laid t p done t'

theorem Grown.not_hasFolder {t t' : Tree} {base : Place} {anchor : Anchor}
    {front made : List Text} (missing : List Text) (h : Grown t base made t')
    (hfront : t.locate true ⟨anchor, front⟩ = .ok base) (hbase : t.node? base = some .folder)
    (hmade : made ≠ []) (hdots : twoDots ∉ made ++ missing) :
    t.hasFolder ⟨anchor, front ++ made ++ missing⟩ = false := by
  obtain ⟨first, rest, rfl, hfirst⟩ := h.first_free hmade
  have hname : first ≠ twoDots := by
    rintro rfl
    exact hdots (by simp)
  rw [List.append_assoc, List.cons_append]
  exact not_hasFolder_of_not_names (not_names_of_missing _ hfront hbase hname hfirst)

theorem Grown.grounds_ne_twoDots {t t' : Tree} {base : Place} {anchor : Anchor}
    {front made rest : List Text} {name : Text} (h : Grown t base made t')
    (hfront : t.locate true ⟨anchor, front⟩ = .ok base) (hbase : t.node? base = some .folder)
    (hmade : made ≠ []) (hdots : twoDots ∉ made)
    (hground : t.Grounds ⟨anchor, front ++ made ++ name :: rest⟩) : name ≠ twoDots := by
  rintro rfl
  have hthere := hground (front ++ made) rest rfl
  have hnot := h.not_hasFolder [] hfront hbase hmade (by simpa using hdots)
  rw [List.append_nil] at hnot
  rw [hnot] at hthere
  exact absurd hthere (by simp)

theorem laid_of_make {t t' : Tree} {anchor : Anchor} {front : List Text} {name : Text}
    (h : t.makeFolder ⟨anchor, front ++ [name]⟩ = .ok t') :
    Laid t ⟨anchor, front ++ [name]⟩ true t' := by
  obtain ⟨place, hplace, hfree, hnode⟩ := make_eq_ok h
  obtain ⟨base, hbase, hfolder⟩ := hasFolder_iff.mp (hasFolder_of_locate_append (by simp) hplace)
  have hname : name ≠ twoDots := by
    rintro rfl
    rw [locate_twoDots hbase hfolder hplace] at hfree
    exact absurd hfree (by simp)
  obtain rfl := locate_append hbase hfolder hname (by simp) hplace
  obtain ⟨hfits, hroute⟩ := locate_eq_ok_iff.mp hplace
  have hstep : IsStep name := (hroute.isStep (by simp)).resolve_left hname
  have hparts : front ++ [name] = front ++ [name] ++ [] := (List.append_nil _).symm
  refine .grown hparts (by simp) (by simp) (by simpa using hname.symm) (by simpa using hstep) hfits
    hbase hfolder ?_
  exact .more .start (by simpa using hfree) (by simpa using hnode)

theorem Laid.step_missing {t t' : Tree} {anchor : Anchor} {front : List Text} {name : Text}
    (hground : t.Grounds ⟨anchor, front ++ [name]⟩) (h : Laid t ⟨anchor, front⟩ false t') :
    Laid t ⟨anchor, front ++ [name]⟩ false t' := by
  cases h with
  | unchanged => exact .unchanged (by simp)
  | @grown head made missing base _ hparts hmade hdone hdots hsteps hfits hbase hfolder hgrown =>
      obtain rfl : front = head ++ made ++ missing := hparts
      have hname : name ≠ twoDots := by
        rintro rfl
        have hthere := hground (head ++ made ++ missing) [] rfl
        rw [hgrown.not_hasFolder missing hbase hfolder hmade hdots] at hthere
        exact absurd hthere (by simp)
      have hparts : head ++ made ++ missing ++ [name] = head ++ made ++ (missing ++ [name]) :=
        List.append_assoc ..
      refine .grown hparts hmade (by simp) ?_ hsteps hfits hbase hfolder hgrown
      rw [← List.append_assoc, List.mem_append, List.mem_singleton]
      exact fun hmem => hmem.elim hdots (fun heq => hname heq.symm)

theorem Laid.step_make {t t' t'' : Tree} {anchor : Anchor} {front : List Text} {name : Text}
    (hground : t.Grounds ⟨anchor, front ++ [name]⟩) (h : Laid t ⟨anchor, front⟩ true t')
    (hmake : t'.makeFolder ⟨anchor, front ++ [name]⟩ = .ok t'') :
    Laid t ⟨anchor, front ++ [name]⟩ true t'' := by
  cases h with
  | unchanged => exact laid_of_make hmake
  | @grown head made missing base _ hparts hmade hdone hdots hsteps hfits hbase hfolder hgrown =>
      obtain rfl := hdone.mp rfl
      obtain rfl : front = head ++ made := by simpa using hparts
      rw [List.append_nil] at hdots
      have hname := hgrown.grounds_ne_twoDots hbase hfolder hmade hdots hground
      obtain ⟨place, hplace, hfree, hnode⟩ := make_eq_ok hmake
      have hlast := hgrown.locate true hbase hfolder hmade hsteps hfits
      obtain rfl := locate_append hlast (hgrown.folder hfolder) hname (by simp) hplace
      obtain ⟨hfits', hroute⟩ := locate_eq_ok_iff.mp hplace
      have hstep : IsStep name := (hroute.isStep (by simp)).resolve_left hname
      have hparts : head ++ made ++ [name] = head ++ (made ++ [name]) ++ [] := by simp
      refine .grown hparts (by simp) (by simp) ?_ ?_ (by simpa using hfits') hbase hfolder
        (.more hgrown hfree hnode)
      · simp only [List.append_nil, List.mem_append, List.mem_singleton, not_or]
        exact ⟨hdots, hname.symm⟩
      · intro other hother
        rcases List.mem_append.mp hother with hother | hother
        · exact hsteps other hother
        · rwa [List.mem_singleton.mp hother]

theorem Laid.step_there {t t' : Tree} {anchor : Anchor} {front : List Text} {name : Text}
    (hground : t.Grounds ⟨anchor, front ++ [name]⟩) (h : Laid t ⟨anchor, front⟩ true t') :
    Laid t ⟨anchor, front ++ [name]⟩ (t'.hasFolder ⟨anchor, front ++ [name]⟩) t' := by
  cases h with
  | unchanged => exact .unchanged id
  | @grown head made missing base _ hparts hmade hdone hdots hsteps hfits hbase hfolder hgrown =>
      obtain rfl := hdone.mp rfl
      obtain rfl : front = head ++ made := by simpa using hparts
      rw [List.append_nil] at hdots
      have hname := hgrown.grounds_ne_twoDots hbase hfolder hmade hdots hground
      have hlast := hgrown.locate true hbase hfolder hmade hsteps hfits
      have hmissing := not_names_of_missing [] hlast (hgrown.folder hfolder) hname
        (hgrown.beyond hmade (by simp))
      rw [not_hasFolder_of_not_names hmissing]
      refine .grown rfl hmade (by simp) ?_ hsteps hfits hbase hfolder
        hgrown
      rw [List.mem_append, List.mem_singleton, not_or]
      exact ⟨hdots, hname.symm⟩

theorem Laid.unchanged_or_bare {t t' : Tree} {anchor : Anchor} {parts below : List Text}
    {done : Bool} (h : Laid t ⟨anchor, parts⟩ done t')
    (hground : t.Grounds ⟨anchor, parts ++ below⟩) (hbelow : below ≠ []) :
    t' = t ∨ ¬t'.Names ⟨anchor, parts ++ below⟩ := by
  cases h with
  | unchanged => exact .inl rfl
  | @grown head made missing base _ hparts hmade _ hdots hsteps hfits hbase hfolder hgrown =>
      obtain rfl : parts = head ++ made ++ missing := hparts
      have hlast := hgrown.locate true hbase hfolder hmade hsteps hfits
      obtain ⟨name, rest, hrest⟩ := List.exists_cons_of_ne_nil
        (show missing ++ below ≠ [] by simp [hbelow])
      have hpath : head ++ made ++ missing ++ below = head ++ made ++ name :: rest := by
        rw [List.append_assoc, hrest]
      rw [hpath] at hground ⊢
      have hname := hgrown.grounds_ne_twoDots hbase hfolder hmade
        (fun hmem => hdots (List.mem_append_left _ hmem)) hground
      exact .inr (not_names_of_missing rest hlast (hgrown.folder hfolder) hname
        (hgrown.beyond hmade (by simp)))

theorem Laid.keeps {t t' : Tree} {p : Path} {done : Bool} (h : Laid t p done t') :
    t'.Extends t := by
  cases h with
  | unchanged => exact .refl t
  | grown _ _ _ _ _ _ _ _ hgrown => exact hgrown.keeps

theorem Laid.not_hasFolder {t t' : Tree} {p : Path} (h : Laid t p false t')
    (hp : t.hasFolder p = false) : t'.hasFolder p = false := by
  cases h with
  | unchanged => exact hp
  | @grown head made missing base _ hparts hmade hdone hdots hsteps hfits hbase hfolder hgrown =>
      have hmissing : missing ≠ [] := fun h => absurd (hdone.mpr h) (by simp)
      obtain ⟨name, rest, rfl⟩ := List.exists_cons_of_ne_nil hmissing
      have hlast := hgrown.locate true hbase hfolder hmade hsteps hfits
      have hname : name ≠ twoDots := by
        rintro rfl
        exact hdots (by simp)
      have hnot := not_names_of_missing rest hlast (hgrown.folder hfolder) hname
        (hgrown.beyond hmade (by simp))
      rw [← hparts] at hnot
      exact not_hasFolder_of_not_names hnot

structure Fresh (t : Tree) (p : Path) (folder : Place) (t' : Tree) : Prop where
  located : ∀ toEnd, t'.locate toEnd p = .ok folder
  isFolder : t'.node? folder = some .folder
  isNew : t.node? folder = none
  empty : ∀ below, below ≠ [] → t'.node? (folder ++ below) = none

theorem Laid.fresh {t t' : Tree} {p : Path} (h : Laid t p true t')
    (hp : t.hasFolder p = false) : ∃ folder, Fresh t p folder t' := by
  cases h with
  | unchanged hthere =>
      rw [hthere rfl] at hp
      exact absurd hp (by simp)
  | @grown head made missing base _ hparts hmade hdone hdots hsteps hfits hbase hfolder hgrown =>
      obtain rfl := hdone.mp rfl
      obtain ⟨anchor, parts⟩ := p
      obtain rfl : parts = head ++ made := by simpa using hparts
      exact ⟨base.along made, fun toEnd => hgrown.locate toEnd hbase hfolder hmade hsteps hfits,
        hgrown.folder hfolder, hgrown.free hmade, fun _ => hgrown.beyond hmade⟩

end Tree

namespace Files

open RemoteModel.Tree

theorem hasFolder_of_nil (t : Tree) (anchor : Anchor) : t.hasFolder ⟨anchor, []⟩ = true := by
  have hfits : Path.Fits ⟨anchor, []⟩ := by
    unfold Path.Fits
    cases anchor <;> decide
  exact hasFolder_iff.mpr ⟨[], locate_eq_ok_iff.mpr ⟨hfits, .done⟩, rfl⟩

theorem makeFolder_nil (t : Tree) (anchor : Anchor) :
    t.makeFolder ⟨anchor, []⟩ = .error .alreadyThere := by
  obtain ⟨place, hplace, hnode⟩ := hasFolder_iff.mp (hasFolder_of_nil t anchor)
  obtain ⟨hfits, hroute⟩ := locate_eq_ok_iff.mp hplace
  have hlast : t.locate false ⟨anchor, []⟩ = .ok [] := locate_eq_ok_iff.mpr ⟨hfits, .done⟩
  unfold makeFolder make
  split
  next hfault => simp [hlast] at hfault
  next other hother =>
    obtain rfl := locate_unique hother hlast
    rfl

theorem unchanged_of_fault {t : Tree} {p : Path} (fault : FileFault) {r : Except Failure Unit × Tree}
    (h : (if t.hasFolder p then (.ok (), t) else (.error (.file fault p.text), t)) = r) :
    Laid t p r.1.isOk r.2 := by
  subst h
  split
  next h => exact .unchanged fun _ => h
  next => exact .unchanged (by simp [Except.isOk, Except.toBool])

theorem makeFoldersTo_laid (depth : Nat) {p : Path} {t : Tree} (hground : t.Grounds p) :
    Laid t p (makeFoldersTo depth p t).1.isOk (makeFoldersTo depth p t).2 := by
  obtain ⟨anchor, parts⟩ := p
  induction depth generalizing parts with
  | zero =>
      rcases parts.eq_nil_or_concat with rfl | ⟨front, name, rfl⟩
      · exact unchanged_of_fault .alreadyThere (by rw [makeFoldersTo, makeFolder_nil])
      · rw [List.concat_eq_append, makeFoldersTo]
        split
        next hmake => exact laid_of_make hmake
        next => exact .unchanged (by simp [Except.isOk, Except.toBool])
        next fault _ _ => exact unchanged_of_fault fault rfl
  | succ depth ih =>
      rcases parts.eq_nil_or_concat with rfl | ⟨front, name, rfl⟩
      · exact unchanged_of_fault .alreadyThere (by rw [makeFoldersTo, makeFolder_nil])
      · rw [List.concat_eq_append] at hground ⊢
        rw [makeFoldersTo]
        split
        next hmake => exact laid_of_make hmake
        next =>
          have hparent := ih front hground.of_append
          rw [Path.parent, List.dropLast_concat]
          dsimp only
          split
          next f t' hup =>
            rw [hup] at hparent
            exact Laid.step_missing hground hparent
          next t' hup =>
            rw [hup] at hparent
            split
            next hmake => exact Laid.step_make hground hparent hmake
            next fault _ =>
              have hstep := Laid.step_there hground hparent
              split
              next h =>
                rw [h] at hstep
                exact hstep
              next h =>
                rw [Bool.eq_false_iff.mpr h] at hstep
                exact hstep
        next fault _ _ => exact unchanged_of_fault fault rfl

theorem makeFolders_laid {p : Path} {t : Tree} (hground : t.Grounds p) :
    Laid t p (makeFolders p t).1.isOk (makeFolders p t).2 := by
  unfold makeFolders
  split
  next => exact .unchanged (by simp [Except.isOk, Except.toBool])
  next => exact makeFoldersTo_laid _ hground

end Files

end RemoteModel
