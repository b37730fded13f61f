import RemoteModel.Proofs.Auth.Supply

/-!
Runs of uses of one signer. Each use up to the first that succeeds asks the supplier once, and none asks it
after that: the signer that was supplied then serves all that follow.
-/

namespace RemoteModel.LazySigner

variable {σ : Type} [HasJournal σ] {supply : σ → Except Failure Signer × σ} {s : LazySigner}

/-- The signer, with any supplier in the place of the files and services of the host. -/
def getBy (supply : σ → Except Failure Signer × σ) (s : LazySigner) (w : σ) :
    Except Failure Signer × LazySigner × σ :=
  match s.signer with
  | some signer => (.ok signer, s, w)
  | none =>
      match supply w with
      | (.error f, w) => (.error (s.blamed f), s, w)
      | (.ok signer, w) =>
          (.ok signer, { s with signer := some signer }, HasJournal.log
            [⟨.debug, logger, "Initialized OCI signer", [("auth_type", .str s.description)]⟩] w)

theorem get_eq_getBy (s : LazySigner) (h : Host) : s.get h = getBy s.source.supply s h := by
  unfold get getBy
  cases s.signer with
  | some signer => rfl
  | none =>
      dsimp only
      obtain ⟨result, h'⟩ := s.source.supply h
      cases result <;> rfl

/-- How asking for the signer ends: it stays as it is, or it is there, and the same as before if it was
there before. -/
inductive Got (s : LazySigner) : Except Failure Signer × LazySigner × σ → Prop
  | failed {f : Failure} {w : σ} : s.signer = none → Got s (.error f, s, w)
  | built {signer : Signer} {w : σ} : (∀ x, s.signer = some x → x = signer) →
      Got s (.ok signer, { s with signer := some signer }, w)

theorem getBy_got (supply : σ → Except Failure Signer × σ) (s : LazySigner) (w : σ) :
    Got s (getBy supply s w) := by
  unfold getBy
  cases hsigner : s.signer with
  | some signer =>
      have hsame : { s with signer := some signer } = s := by
        rw [← hsigner]
      have hbuilt := @Got.built σ s signer w fun x hx => Option.some.inj (hx.symm.trans hsigner)
      rwa [hsame] at hbuilt
  | none =>
      dsimp only
      obtain ⟨result, w'⟩ := supply w
      cases result with
      | error f => exact .failed hsigner
      | ok signer => exact .built fun x hx => by cases hsigner.symm.trans hx

theorem get_got (s : LazySigner) (h : Host) : Got s (s.get h) := by
  rw [get_eq_getBy]
  exact getBy_got s.source.supply s h

inductive Use where
  | get
  | sign (r : Request)

/-- What a use comes to once there is a signer. -/
def Use.yield : Use → Signer → Signer ⊕ Request
  | .get, signer => .inl signer
  | .sign r, signer => .inr { r with headers := r.headers.put "authorization" signer.header }

def use (s : LazySigner) (u : Use) (h : Host) : Except Failure (Signer ⊕ Request) × LazySigner × Host :=
  match u with
  | .get => ((s.get h).1.map .inl, (s.get h).2)
  | .sign r => ((s.sign r h).1.map .inr, (s.sign r h).2)

def useBy (supply : σ → Except Failure Signer × σ) (s : LazySigner) (u : Use) (w : σ) :
    Except Failure (Signer ⊕ Request) × LazySigner × σ :=
  ((getBy supply s w).1.map u.yield, (getBy supply s w).2)

theorem use_eq_useBy (s : LazySigner) (u : Use) (h : Host) : s.use u h = useBy s.source.supply s u h := by
  unfold useBy
  rw [← get_eq_getBy]
  cases u with
  | get => rfl
  | sign r =>
      unfold use sign
      obtain ⟨result, s', h'⟩ := s.get h
      cases result <;> rfl

theorem use_snd (s : LazySigner) (u : Use) (h : Host) : (s.use u h).2 = (s.get h).2 := by
  rw [use_eq_useBy, get_eq_getBy]
  rfl

/-- A use, and what has changed around the signer before it. -/
structure Turn (σ : Type) where
  change : σ → σ
  use : Use

/-- What comes of the uses in order, and what is left behind. -/
def follow (doing : LazySigner → Use → σ → Except Failure (Signer ⊕ Request) × LazySigner × σ) :
    LazySigner → List (Turn σ) → σ → List (Except Failure (Signer ⊕ Request)) × LazySigner × σ
  | s, [], w => ([], s, w)
  | s, t :: turns, w =>
      let (outcome, s, w) := doing s t.use (t.change w)
      let (outcomes, ending) := follow doing s turns w
      (outcome :: outcomes, ending)

def run (s : LazySigner) (turns : List (Turn Host)) (h : Host) :
    List (Except Failure (Signer ⊕ Request)) × LazySigner × Host :=
  follow use s turns h

/-- A use as it is seen from outside and from the supplier. -/
structure Call where
  use : Use
  supplied : List (Except Failure Signer)
  outcome : Except Failure (Signer ⊕ Request)
  after : LazySigner

/-- A supplier that notes down what it supplies. -/
def noted (supply : σ → Except Failure Signer × σ) (w : List (Except Failure Signer) × σ) :
    Except Failure Signer × List (Except Failure Signer) × σ :=
  ((supply w.2).1, w.1 ++ [(supply w.2).1], (supply w.2).2)

def calls (supply : σ → Except Failure Signer × σ) :
    LazySigner → List (Turn σ) → σ → List Call × LazySigner × σ
  | s, [], w => ([], s, w)
  | s, t :: turns, w =>
      let (outcome, s, supplied, w) := useBy (noted supply) s t.use ([], t.change w)
      let (more, ending) := calls supply s turns w
      (⟨t.use, supplied, outcome, s⟩ :: more, ending)

/-- A use of a signer that is there. -/
structure Served (signer : Signer) (s : LazySigner) (c : Call) : Prop where
  supplied : c.supplied = []
  outcome : c.outcome = .ok (c.use.yield signer)
  after : c.after = s

/-- The calls of a signer that is not there yet. Those that fail leave it as it is; the first for which it
is supplied leaves it to all others. -/
inductive Course (s : LazySigner) : List Call → Prop
  | nil : Course s []
  | failed {c : Call} {f : Failure} {rest : List Call} : c.supplied = [.error f] →
      c.outcome = .error (s.blamed f) → c.after = s → Course s rest → Course s (c :: rest)
  | built {c : Call} {signer : Signer} {rest : List Call} : c.supplied = [.ok signer] →
      c.outcome = .ok (c.use.yield signer) → c.after = { s with signer := some signer } →
      (∀ c ∈ rest, Served signer { s with signer := some signer } c) → Course s (c :: rest)

theorem useBy_built {signer : Signer} (hbuilt : s.signer = some signer) (u : Use) (w : σ) :
    useBy supply s u w = (.ok (u.yield signer), s, w) := by
  unfold useBy getBy
  rw [hbuilt]
  rfl

theorem useBy_error (hunbuilt : s.signer = none) (u : Use) {w w' : σ} {f : Failure}
    (hsupply : supply w = (.error f, w')) : useBy supply s u w = (.error (s.blamed f), s, w') := by
  unfold useBy getBy
  rw [hunbuilt]
  dsimp only
  rw [hsupply]
  rfl

theorem useBy_ok (hunbuilt : s.signer = none) (u : Use) {w w' : σ} {signer : Signer}
    (hsupply : supply w = (.ok signer, w')) :
    ∃ records, useBy supply s u w =
      (.ok (u.yield signer), { s with signer := some signer }, HasJournal.log records w') := by
  unfold useBy getBy
  rw [hunbuilt]
  dsimp only
  rw [hsupply]
  exact ⟨_, rfl⟩

theorem calls_served {signer : Signer} (hbuilt : s.signer = some signer) (turns : List (Turn σ)) (w : σ) :
    ∀ c ∈ (calls supply s turns w).1, Served signer s c := by
  induction turns generalizing w with
  | nil => nofun
  | cons t turns ih =>
      rw [calls, useBy_built hbuilt]
      intro c hc
      rcases List.mem_cons.mp hc with rfl | hc
      · exact ⟨rfl, rfl, rfl⟩
      · exact ih _ c hc

theorem calls_course (hunbuilt : s.signer = none) (turns : List (Turn σ)) (w : σ) :
    Course s (calls supply s turns w).1 := by
  induction turns generalizing w with
  | nil => exact .nil
  | cons t turns ih =>
      rw [calls]
      cases hsupply : supply (t.change w) with
      | mk result w' =>
          have hnoted : noted supply ([], t.change w) = (result, [result], w') := by
            unfold noted
            rw [hsupply]
            rfl
          cases result with
          | error f =>
              rw [useBy_error hunbuilt t.use hnoted]
              exact .failed rfl rfl rfl (ih w')
          | ok signer =>
              obtain ⟨records, hrun⟩ := useBy_ok hunbuilt t.use hnoted
              rw [hrun]
              exact .built rfl rfl rfl (calls_served rfl turns _)

theorem isBuilt_of_ofDescriptor {d : AuthDescriptor} (h : ofDescriptor d = .ok s) : s.isBuilt = false := by
  unfold ofDescriptor at h
  split at h
  next =>
    cases h
    rfl
  next =>
    cases h
    rfl
  next =>
    cases hcheck : checkSettings (some d.toSettings) with
    | error f =>
        rw [hcheck] at h
        cases h
    | ok =>
        rw [hcheck] at h
        cases h
        rfl

theorem keyLoad_of_blamed (s : LazySigner) {f : Failure} (hordinary : f.isA (.basic .exception) = true) :
    (s.blamed f).isA (.own .keyLoad) = true := by
  rcases s.blamed_cases f with hkey | ⟨-, hstrange⟩
  · exact hkey
  · cases hordinary.symm.trans hstrange

theorem calls_uses (s : LazySigner) (turns : List (Turn σ)) (w : σ) :
    (calls supply s turns w).1.map Call.use = turns.map Turn.use := by
  induction turns generalizing s w with
  | nil => rfl
  | cons t turns ih =>
      rw [calls, List.map_cons, List.map_cons, ih]

/-- Noting down what is supplied changes nothing. -/
theorem useBy_noted (s : LazySigner) (u : Use) (seen : List (Except Failure Signer)) (w : σ) :
    useBy supply s u w = ((useBy (noted supply) s u (seen, w)).1,
      (useBy (noted supply) s u (seen, w)).2.1, (useBy (noted supply) s u (seen, w)).2.2.2) := by
  unfold useBy getBy noted
  cases s.signer with
  | some signer => rfl
  | none =>
      dsimp only
      obtain ⟨result, w'⟩ := supply w
      cases result <;> rfl

theorem follow_eq_calls (s : LazySigner) (turns : List (Turn σ)) (w : σ) :
    follow (useBy supply) s turns w =
      ((calls supply s turns w).1.map Call.outcome, (calls supply s turns w).2) := by
  induction turns generalizing s w with
  | nil => rfl
  | cons t turns ih =>
      rw [follow, calls, useBy_noted s t.use [] (t.change w)]
      dsimp only
      rw [ih]
      rfl

theorem source_useBy (s : LazySigner) (u : Use) (w : σ) :
    (useBy supply s u w).2.1.source = s.source := by
  have hgot := getBy_got supply s w
  unfold useBy
  generalize getBy supply s w = ending at hgot ⊢
  cases hgot <;> rfl

theorem run_eq_follow (s : LazySigner) (turns : List (Turn Host)) (h : Host) :
    s.run turns h = follow (useBy s.source.supply) s turns h := by
  unfold run
  induction turns generalizing s h with
  | nil => rfl
  | cons t turns ih =>
      have hsource := @source_useBy Host _ s.source.supply s t.use (t.change h)
      rw [follow, follow, use_eq_useBy]
      dsimp only
      rw [ih, hsource]

end RemoteModel.LazySigner
