import RemoteModel.Files.Tree

/-!
Routes: the ways along which names are followed through a tree. Walking is finding a route, so what
holds of walks is shown by induction on routes: a route is extended by a name, cut after a name, kept
by trees that keep the folders and links on it, and ends at one place however many links may be
followed.
-/

namespace RemoteModel

def Node.isWay : Node → Bool
  | .file _ => false
  | .folder | .link _ => true

namespace Tree

structure IsStep (name : Text) : Prop where
  down : name ≠ twoDots
  short : (FileName.bytes name).length ≤ nameLimit

def linkStart (here : Place) (target : Path) : Place :=
  match target.anchor with
  | .here => here
  | _ => []

/-- Names followed from a folder to a place, over fewer than some links. -/
inductive Route (t : Tree) (toEnd : Bool) : Nat → Place → List Text → Place → Prop
  | done {n here} : Route t toEnd (n + 1) here [] here
  | back {n here rest place} :
      Route t toEnd (n + 1) here.dropLast rest place →
      Route t toEnd (n + 1) here (twoDots :: rest) place
  | stop {n here name} :
      IsStep name →
      (toEnd = true → ∀ target, t.node? (here ++ [FileName.settled name]) ≠ some (.link target)) →
      Route t toEnd (n + 1) here [name] (here ++ [FileName.settled name])
  | into {n here name rest place} :
      IsStep name → t.node? (here ++ [FileName.settled name]) = some .folder →
      Route t toEnd (n + 1) (here ++ [FileName.settled name]) rest place →
      Route t toEnd (n + 1) here (name :: rest) place
  | follow {n here name rest place target} :
      IsStep name → t.node? (here ++ [FileName.settled name]) = some (.link target) →
      (rest ≠ [] ∨ toEnd = true) →
      Route t toEnd n (linkStart here target) (target.parts ++ rest) place →
      Route t toEnd (n + 1) here (name :: rest) place

theorem walk_eq_ok_of_route {t : Tree} {toEnd : Bool} {n : Nat} {here : Place}
    {names : List Text} {place : Place} (h : Route t toEnd n here names place) :
    walk t toEnd n here names = .ok place := by
  induction h with
  | done => rfl
  | back _ ih => rw [walk, step, if_pos rfl]; exact ih
  | @stop n here name hname hend =>
      have hshort := Nat.not_lt.mpr hname.short
      rw [walk, step, if_neg hname.down, if_neg hshort]
      dsimp only
      cases hnode : t.node? (here ++ [FileName.settled name]) with
      | none => rfl
      | some node =>
          cases node with
          | file content => rfl
          | folder => rfl
          | link target =>
              cases toEnd with
              | false => rfl
              | true => exact absurd hnode (hend rfl target)
  | into hname hnode _ ih =>
      have hshort := Nat.not_lt.mpr hname.short
      rw [walk, step, if_neg hname.down, if_neg hshort]
      dsimp only
      rw [hnode]
      exact ih
  | @follow n here name rest place target hname hnode hrest _ ih =>
      have hshort := Nat.not_lt.mpr hname.short
      have hgo : ¬(rest.isEmpty && !toEnd) = true := by
        rcases hrest with h | h <;> simp [h]
      rw [walk, step, if_neg hname.down, if_neg hshort]
      dsimp only
      rw [hnode]
      dsimp only
      rw [if_neg hgo]
      exact ih

theorem route_of_step {t : Tree} {toEnd : Bool} {n : Nat}
    (hjump : ∀ here names place, walk t toEnd n here names = .ok place →
      Route t toEnd n here names place) (names : List Text) :
    ∀ here place, step (walk t toEnd n) t toEnd here names = .ok place →
      Route t toEnd (n + 1) here names place := by
  induction names with
  | nil =>
      intro here place h
      simp only [step, Except.ok.injEq] at h
      exact h ▸ .done
  | cons name rest ih =>
      intro here place h
      rw [step] at h
      split at h
      next hdots => exact hdots ▸ .back (ih _ _ h)
      next hdown =>
        split at h
        next => simp at h
        next hshort =>
          have hname : IsStep name := ⟨hdown, Nat.not_lt.mp hshort⟩
          dsimp only at h
          split at h
          next hn => cases h; exact .stop hname (by simp [hn])
          next => simp at h
          next hn => exact .into hname hn (ih _ _ h)
          next hn => cases h; exact .stop hname (by simp [hn])
          next => simp at h
          next target hn =>
            split at h
            next hstop =>
              simp only [Bool.and_eq_true, List.isEmpty_iff, Bool.not_eq_true'] at hstop
              obtain ⟨rfl, rfl⟩ := hstop
              cases h
              exact .stop hname (by simp)
            next hgo =>
              refine .follow hname hn ?_ (hjump _ _ _ h)
              simpa [Classical.or_iff_not_imp_left] using hgo

theorem route_of_walk {t : Tree} {toEnd : Bool} (n : Nat) :
    ∀ here names place, walk t toEnd n here names = .ok place →
      Route t toEnd n here names place := by
  induction n with
  | zero => intro here names place h; simp [walk] at h
  | succ n ih => exact fun here names place => route_of_step ih names here place

theorem walk_eq_ok_iff {t : Tree} {toEnd : Bool} {n : Nat} {here : Place} {names : List Text}
    {place : Place} :
    walk t toEnd n here names = .ok place ↔ Route t toEnd n here names place :=
  ⟨route_of_walk n here names place, walk_eq_ok_of_route⟩

namespace Route

variable {t : Tree} {toEnd : Bool} {n : Nat} {here : Place} {names : List Text} {place : Place}

theorem mono (h : Route t toEnd n here names place) {m : Nat} (hm : n ≤ m) :
    Route t toEnd m here names place := by
  induction h generalizing m with
  | done => cases m with
      | zero => omega
      | succ m => exact .done
  | back _ ih => cases m with
      | zero => omega
      | succ m => exact .back (ih hm)
  | stop hname hend => cases m with
      | zero => omega
      | succ m => exact .stop hname hend
  | into hname hnode _ ih => cases m with
      | zero => omega
      | succ m => exact .into hname hnode (ih hm)
  | follow hname hnode hrest _ ih => cases m with
      | zero => omega
      | succ m => exact .follow hname hnode hrest (ih (Nat.le_of_succ_le_succ hm))

theorem unique (h : Route t toEnd n here names place) {m : Nat} {other : Place}
    (h' : Route t toEnd m here names other) : place = other := by
  have hmax := walk_eq_ok_iff.mpr (h.mono (Nat.le_max_left n m))
  have hmax' := walk_eq_ok_iff.mpr (h'.mono (Nat.le_max_right n m))
  rw [hmax] at hmax'
  exact Except.ok.inj hmax'

theorem isStep (h : Route t toEnd n here names place) {name : Text} (hname : name ∈ names) :
    name = twoDots ∨ IsStep name := by
  induction h with
  | done => simp at hname
  | back _ ih =>
      rcases List.mem_cons.mp hname with rfl | hname
      · exact .inl rfl
      · exact ih hname
  | stop hstep _ => exact .inr (List.mem_singleton.mp hname ▸ hstep)
  | into hstep _ _ ih =>
      rcases List.mem_cons.mp hname with rfl | hname
      · exact .inr hstep
      · exact ih hname
  | follow hstep _ _ _ ih =>
      rcases List.mem_cons.mp hname with rfl | hname
      · exact .inr hstep
      · exact ih (List.mem_append_right _ hname)

theorem toLast (h : Route t true n here names place) : ∃ other, Route t false n here names other := by
  induction h with
  | done => exact ⟨_, .done⟩
  | back _ ih => exact ⟨_, .back (ih).choose_spec⟩
  | stop hname _ => exact ⟨_, .stop hname (by simp)⟩
  | into hname hnode _ ih => exact ⟨_, .into hname hnode (ih).choose_spec⟩
  | @follow n here name rest place target hname hnode _ _ ih =>
      by_cases hrest : rest = []
      · subst hrest
        exact ⟨_, .stop hname (by simp)⟩
      · exact ⟨_, .follow hname hnode (.inl hrest) (ih).choose_spec⟩

theorem notLink (h : Route t true n here names place) (hhere : t.node? here = some .folder) :
    ∀ target, t.node? place ≠ some (.link target) := by
  induction h with
  | done => simp [hhere]
  | back _ ih => exact ih (node?_dropLast (by simp [hhere]))
  | stop _ hend => exact hend rfl
  | into _ hnode _ ih => exact ih hnode
  | @follow n here name rest place target _ _ _ _ ih =>
      refine ih ?_
      unfold linkStart
      split
      · exact hhere
      · rfl

theorem linkStart_folder (hhere : t.node? here = some .folder) (target : Path) :
    t.node? (linkStart here target) = some .folder := by
  unfold linkStart
  split
  · exact hhere
  · rfl

theorem toEnd_of_notLink (h : Route t false n here names place)
    (hplace : ∀ target, t.node? place ≠ some (.link target)) : Route t true n here names place := by
  induction h with
  | done => exact .done
  | back _ ih => exact .back (ih hplace)
  | stop hname _ => exact .stop hname fun _ => hplace
  | into hname hnode _ ih => exact .into hname hnode (ih hplace)
  | follow hname hnode _ _ ih => exact .follow hname hnode (.inr rfl) (ih hplace)

theorem through_link (h : Route t true n here names place) (hhere : t.node? here = some .folder)
    {m : Nat} {last : Place} {target : Path} (hlast : Route t false m here names last)
    (hlink : t.node? last = some (.link target)) :
    ∃ k, Route t true k (linkStart last.dropLast target) target.parts place := by
  induction h generalizing m with
  | done =>
      cases hlast with
      | done => simp [hhere] at hlink
  | back _ ih =>
      cases hlast with
      | back hlast => exact ih (node?_dropLast (by simp [hhere])) hlast
      | stop hname => exact absurd rfl hname.down
      | into hname => exact absurd rfl hname.down
      | follow hname => exact absurd rfl hname.down
  | stop hname hend =>
      cases hlast with
      | back => exact absurd rfl hname.down
      | stop => exact absurd hlink (hend rfl target)
      | into _ _ hlast =>
          cases hlast with
          | done => exact absurd hlink (hend rfl target)
      | follow _ hnode => exact absurd hnode (hend rfl _)
  | into hname hnode _ ih =>
      cases hlast with
      | back => exact absurd rfl hname.down
      | stop => simp [hnode] at hlink
      | into _ _ hlast => exact ih hnode hlast
      | follow _ hnode' => simp [hnode] at hnode'
  | @follow n here name rest place other hname hnode _ hroute ih =>
      cases hlast with
      | back => exact absurd rfl hname.down
      | stop =>
          rw [hnode] at hlink
          cases hlink
          rw [List.dropLast_concat]
          exact ⟨n, by simpa using hroute⟩
      | into _ hnode' => simp [hnode] at hnode'
      | follow _ hnode' _ hlast =>
          rw [hnode] at hnode'
          cases hnode'
          exact ih (linkStart_folder hhere other) hlast

theorem append (h : Route t true n here names place) (hplace : t.node? place = some .folder)
    {name : Text} (hname : IsStep name)
    (hend : toEnd = true → ∀ target, t.node? (place ++ [FileName.settled name]) ≠ some (.link target)) :
    Route t toEnd n here (names ++ [name]) (place ++ [FileName.settled name]) := by
  induction h with
  | done => exact .stop hname hend
  | back _ ih => exact .back (ih hplace hend)
  | stop hstep _ => exact .into hstep hplace (.stop hname hend)
  | into hstep hnode _ ih => exact .into hstep hnode (ih hplace hend)
  | @follow n here first rest place target hstep hnode _ _ ih =>
      refine .follow hstep hnode (.inl (by simp)) ?_
      have hmore := ih hplace hend
      rwa [List.append_assoc] at hmore

theorem append_back (h : Route t true n here names place)
    (hplace : t.node? place = some .folder) :
    Route t toEnd n here (names ++ [twoDots]) place.dropLast := by
  induction h with
  | done => exact .back .done
  | back _ ih => exact .back (ih hplace)
  | stop hstep _ => exact .into hstep hplace (.back .done)
  | into hstep hnode _ ih => exact .into hstep hnode (ih hplace)
  | follow hstep hnode _ _ ih =>
      refine .follow hstep hnode (.inl (by simp)) ?_
      have hmore := ih hplace
      rwa [List.append_assoc] at hmore

theorem cut (h : Route t toEnd n here names place) (hhere : t.node? here = some .folder)
    {front back : List Text} (hnames : names = front ++ back) (hback : back ≠ []) :
    ∃ folder, Route t true n here front folder ∧ t.node? folder = some .folder := by
  induction h generalizing front with
  | done =>
      obtain ⟨rfl, rfl⟩ := List.append_eq_nil_iff.mp hnames.symm
      exact absurd rfl hback
  | back _ ih =>
      cases front with
      | nil => exact ⟨_, .done, hhere⟩
      | cons first front =>
          obtain ⟨rfl, rfl⟩ := List.cons.inj hnames
          obtain ⟨folder, hroute, hfolder⟩ := ih (node?_dropLast (by simp [hhere])) rfl
          exact ⟨folder, .back hroute, hfolder⟩
  | stop hname _ =>
      cases front with
      | nil => exact ⟨_, .done, hhere⟩
      | cons first front =>
          obtain ⟨rfl, hnil⟩ := List.cons.inj hnames
          exact absurd (List.append_eq_nil_iff.mp hnil.symm).2 hback
  | into hname hnode _ ih =>
      cases front with
      | nil => exact ⟨_, .done, hhere⟩
      | cons first front =>
          obtain ⟨rfl, rfl⟩ := List.cons.inj hnames
          obtain ⟨folder, hroute, hfolder⟩ := ih hnode rfl
          exact ⟨folder, .into hname hnode hroute, hfolder⟩
  | @follow n here name rest place target hname hnode hrest hroute ih =>
      cases front with
      | nil => exact ⟨_, .done, hhere⟩
      | cons first front =>
          obtain ⟨rfl, rfl⟩ := List.cons.inj hnames
          obtain ⟨folder, hroute, hfolder⟩ :=
            ih (linkStart_folder hhere target) (List.append_assoc target.parts front back).symm
          exact ⟨folder, .follow hname hnode (.inr rfl) hroute, hfolder⟩

theorem transfer (h : Route t toEnd n here names place) {t' : Tree}
    (hways : ∀ q node, t.node? q = some node → node.isWay = true → t'.node? q = some node)
    (hend : toEnd = true → ∀ target, t'.node? place ≠ some (.link target)) :
    Route t' toEnd n here names place := by
  induction h with
  | done => exact .done
  | back _ ih => exact .back (ih hend)
  | stop hname _ => exact .stop hname hend
  | into hname hnode _ ih => exact .into hname (hways _ _ hnode rfl) (ih hend)
  | follow hname hnode hrest _ ih =>
      exact .follow hname (hways _ _ hnode rfl) hrest (ih hend)

end Route

end Tree

end RemoteModel
