import Mathlib.Algebra.GroupWithZero.Nat
import Mathlib.Data.List.Forall2
import Mathlib.Data.List.ModifyLast
import RemoteModel.Inference.Service

/-!
Predictions over documents. The rounds of a prediction go over the documents from the front: each is
rendered from all that are left, and the next goes on after as many as it gave tensors, one at least.
The objects that the rounds hand over are read when all rounds are made.
-/

namespace RemoteModel

/-- What the check of the status finds in an answer. -/
def Response.heard (r : Response) : Except Failure Text :=
  match (r.readText "utf-8").1 with
  | .error f => .error f
  | .ok body => if r.isSuccess then .ok body else .error (.remote (.int r.status) body none)

/-- A call, what it was answered with and, if the output processor ran, the body it was given and what
it gave, as it was then. -/
structure Visit where
  call : Call
  answer : Except Failure Response
  processed : Option (Text × Except Failure Tensors)

def Visit.status? (v : Visit) : Option Int :=
  match v.answer with
  | .ok r => some r.status
  | .error _ => none

namespace Handed

variable {σ : Type}

/-- The object in a state with something else beside. -/
def beside (ν : Type) : Handed σ → Handed (ν × σ)
  | own tensors => .own tensors
  | kept object => .kept
      { read := fun st => object.read st.2
        tag := fun status st => (st.1, object.tag status st.2)
        read_tag := fun status st => object.read_tag status st.2 }

@[simp] theorem read_beside {ν : Type} (object : Handed σ) (beside : ν) (st : σ) :
    (object.beside ν).read (beside, st) = object.read st := by
  cases object <;> rfl

@[simp] theorem tag_beside {ν : Type} (object : Handed σ) (status : Int) (beside : ν) (st : σ) :
    (object.beside ν).tag status (beside, st) =
      ((object.tag status st).1.beside ν, beside, (object.tag status st).2) := by
  cases object <;> rfl

theorem read_tag (object : Handed σ) (status : Int) (st : σ) :
    (object.tag status st).1.read (object.tag status st).2 =
      { object.read st with status := some status } := by
  cases object with
  | own tensors => rfl
  | kept object => exact object.read_tag status st

@[simp] theorem map_read_own (st : σ) (calls : List Tensors) :
    (calls.map own).map (read st) = calls := by
  rw [List.map_map]
  exact List.map_id calls

end Handed

namespace Service

section

variable {σ : Type} [HasJournal σ]

theorem bodyOf_heard (s : Service σ) (r : Response) (st : σ) : (s.bodyOf r st).1 = r.heard := by
  unfold bodyOf Response.heard
  cases r.readText "utf-8" with
  | mk text _ =>
      cases text with
      | error => rfl
      | ok body =>
          dsimp only
          cases r.isSuccess <;> rfl

/-- Notes down on the last visit what the output processor made of its body. -/
def noteProcessed (body : Text) (given : Except Failure Tensors) (visits : List Visit) : List Visit :=
  visits.modifyLast fun v => { v with processed := some (body, given) }

/-- The service that notes down its calls in order. -/
def watched (s : Service σ) : Service (List Visit × σ) where
  connector := s.connector
  input := s.input
  output body c parameters st :=
    match s.output body c parameters st.2 with
    | (given, st') =>
        (given.map (·.beside _), noteProcessed body (given.map (·.read st')) st.1, st')
  execute call st :=
    match s.execute call st.2 with
    | (answer, st') => (answer, st.1 ++ [⟨call, answer, none⟩], st')

/-- The call that a query is rendered to. -/
def callOn (s : Service σ) (q : Query) : Except Failure Call := do
  let parameters ← s.parameters q
  callOf s.connector .predict parameters

/-- The call for a batch of documents. -/
def callFor (s : Service σ) (docs : List Text) : Except Failure Call := do
  let parameters ← s.parameters (batch docs)
  callOf s.connector .predict parameters

/-- A round hands an object over when its call is answered with a success and the output processor makes
it of the body. It is tagged with the status, in its place; what it reads then is what the round gives. -/
inductive Hands (s : Service σ) : Except Failure Visit → Handed σ → Tensors → Prop
  | intro {call : Call} {r : Response} {body : Text} {object : Handed σ} {given : Tensors}
      (parameters : Entries Json) (st : σ) {st' : σ} : r.heard = .ok body →
      s.output body s.connector parameters st = (.ok object, st') → object.read st' = given →
      Hands s (.ok ⟨call, .ok r, some (body, .ok given)⟩) (object.tag r.status st').1
        { given with status := some r.status }

def Gives (s : Service σ) (r : Except Failure Visit) (t : Tensors) : Prop :=
  ∃ object, s.Hands r object t

/-- Each object that is handed over is one of its own. -/
def HandsOwn (s : Service σ) : Prop :=
  ∀ body parameters st object, (s.output body s.connector parameters st).1 = .ok object →
    ∃ t, object = .own t

/-- The output processor hands over what the default one makes of a body. -/
def HandsDefault (s : Service σ) : Prop :=
  ∀ body parameters st, (s.output body s.connector parameters st).1 =
    (Inference.defaultOutput body s.connector parameters).map .own

/-- The ways in which a round fails: it cannot be rendered, it is not answered, its answer is no success
or cannot be read, or the output processor fails. -/
inductive Fails (s : Service σ) : Except Failure Visit → Failure → Prop
  | unrendered (f : Failure) : Fails s (.error f) f
  | unanswered {call : Call} (f : Failure) : Fails s (.ok ⟨call, .error f, none⟩) f
  | refused {call : Call} {r : Response} {f : Failure} : r.heard = .error f →
      Fails s (.ok ⟨call, .ok r, none⟩) f
  | unprocessed {call : Call} {r : Response} {body : Text} {f : Failure} (parameters : Entries Json)
      (st : σ) : r.heard = .ok body → (s.output body s.connector parameters st).1 = .error f →
      Fails s (.ok ⟨call, .ok r, some (body, .error f)⟩) f

/-- How far a round goes on. -/
def advance : Except Failure Visit → Nat
  | .ok ⟨_, _, some (_, .ok given)⟩ => max given.tensors.length 1
  | _ => 1

/-- Where the documents of a round start. -/
def offset (rounds : List (Except Failure Visit)) (k : Nat) : Nat := ((rounds.take k).map advance).sum

/-- The rounds over some documents and what they give together. -/
inductive Rounds (s : Service σ) :
    List Text → List (Except Failure Visit) → Except Failure (List Tensors) → Prop
  | done : Rounds s [] [] (.ok [])
  | fails {docs : List Text} {r : Except Failure Visit} {f : Failure} : docs ≠ [] →
      s.callFor docs = r.map Visit.call → s.Fails r f → Rounds s docs [r] (.error f)
  | gives {docs : List Text} {r : Except Failure Visit} {t : Tensors}
      {rest : List (Except Failure Visit)} {result : Except Failure (List Tensors)} : docs ≠ [] →
      s.callFor docs = r.map Visit.call → s.Gives r t → Rounds s (docs.drop (advance r)) rest result →
      Rounds s docs (r :: rest) (result.map (t :: ·))

/-- How a round ends. -/
def Ends (s : Service σ) (r : Except Failure Visit) : Except Failure Tensors → Prop
  | .error f => s.Fails r f
  | .ok t => s.Gives r t

/-- What rounds hand over together, beside what they give together. -/
structure Gathers (s : Service σ) (rounds : List (Except Failure Visit))
    (handed : Except Failure (List (Handed σ))) (result : Except Failure (List Tensors)) : Prop where
  failed : ∀ f, handed = .error f ↔ result = .error f
  objects : ∀ objects, handed = .ok objects →
    List.Forall₂ (fun r object => ∃ t, s.Hands r object t) rounds objects

omit [HasJournal σ] in
theorem Gives.advance_eq {s : Service σ} {r : Except Failure Visit} {t : Tensors} (h : s.Gives r t) :
    advance r = max t.tensors.length 1 := by
  obtain ⟨_, ⟨⟩⟩ := h
  rfl

omit [HasJournal σ] in
theorem Gives.unique {s : Service σ} {r : Except Failure Visit} {t t' : Tensors} (h : s.Gives r t)
    (h' : s.Gives r t') : t = t' := by
  obtain ⟨_, ⟨⟩⟩ := h
  obtain ⟨_, ⟨⟩⟩ := h'
  rfl

omit [HasJournal σ] in
theorem Hands.eq_own {s : Service σ} (hown : s.HandsOwn) {r : Except Failure Visit}
    {object : Handed σ} {t : Tensors} (h : s.Hands r object t) : object = .own t := by
  cases h with
  | intro _ _ _ hgiven hread =>
      obtain ⟨_, rfl⟩ := hown _ _ _ _ (congrArg Prod.fst hgiven)
      obtain rfl := hread
      rfl

omit [HasJournal σ] in
theorem watched_execute {s : Service σ} {call : Call} {answer : Except Failure Response} {st st' : σ}
    (h : s.execute call st = (answer, st')) (seen : List Visit) :
    s.watched.execute call (seen, st) = (answer, seen ++ [⟨call, answer, none⟩], st') := by
  change (match s.execute call st with
    | (answer, st') => (answer, seen ++ [Visit.mk call answer none], st')) = _
  rw [h]

theorem watched_bodyOf {s : Service σ} {r : Response} {result : Except Failure Text} {st st' : σ}
    (h : s.bodyOf r st = (result, st')) (seen : List Visit) :
    s.watched.bodyOf r (seen, st) = (result, seen, st') := by
  unfold bodyOf at h ⊢
  split at h
  next => cases h; rfl
  next =>
    split at h
    next hsuccess =>
      cases h
      rw [if_pos hsuccess]
    next hsuccess =>
      cases h
      rw [if_neg hsuccess]
      rfl

omit [HasJournal σ] in
theorem watched_output {s : Service σ} {body : Text} {parameters : Entries Json}
    {given : Except Failure (Handed σ)} {st st' : σ}
    (h : s.output body s.connector parameters st = (given, st')) (seen : List Visit) (call : Call)
    (answer : Except Failure Response) :
    s.watched.output body s.connector parameters (seen ++ [⟨call, answer, none⟩], st) =
      (given.map (·.beside _),
        seen ++ [⟨call, answer, some (body, given.map (·.read st'))⟩], st') := by
  change (match s.output body s.connector parameters st with
    | (given, st') => (given.map (Handed.beside _),
        noteProcessed body (given.map (Handed.read st')) (seen ++ [Visit.mk call answer none]),
        st')) = _
  rw [h]
  unfold noteProcessed
  dsimp only
  rw [List.modifyLast_concat]

/-- A query is one round. -/
theorem invoke_round (s : Service σ) (q : Query) (seen : List Visit) (st : σ) :
    ∃ r handed st',
      s.watched.invoke q (seen, st) =
        (handed.map (·.beside _), seen ++ r.toOption.toList, st') ∧
      s.invoke q st = (handed, st') ∧ s.callOn q = r.map Visit.call ∧
      s.Ends r (handed.map (·.read st')) ∧
      ∀ object, handed = .ok object → s.Hands r object (object.read st') := by
  have hunrendered (f : Failure) : seen ++ (Except.error f : Except Failure Visit).toOption.toList =
      seen := List.append_nil seen
  unfold invoke callOn
  rw [show s.watched.parameters q = s.parameters q from rfl,
    show s.watched.connector = s.connector from rfl]
  dsimp only [bind, Except.bind, pure, Except.pure]
  cases s.parameters q with
  | error f =>
      exact ⟨.error f, .error f, st, by rw [hunrendered]; rfl, rfl, rfl, .unrendered f, nofun⟩
  | ok parameters =>
      dsimp only
      cases callOf s.connector .predict parameters with
      | error f =>
          exact ⟨.error f, .error f, st, by rw [hunrendered]; rfl, rfl, rfl, .unrendered f, nofun⟩
      | ok call =>
          cases hexecute : s.execute call st with
          | mk answer st₁ =>
              dsimp only
              rw [watched_execute hexecute, hexecute]
              cases answer with
              | error f =>
                  exact ⟨.ok ⟨call, .error f, none⟩, .error f, st₁, rfl, rfl, rfl, .unanswered f,
                    nofun⟩
              | ok r =>
                  have hheard := s.bodyOf_heard r st₁
                  dsimp only
                  cases hbody : s.bodyOf r st₁ with
                  | mk text st₂ =>
                      rw [hbody] at hheard
                      rw [watched_bodyOf hbody]
                      cases text with
                      | error f =>
                          exact ⟨.ok ⟨call, .ok r, none⟩, .error f, st₂, rfl, rfl, rfl,
                            .refused hheard.symm, nofun⟩
                      | ok body =>
                          dsimp only
                          cases houtput : s.output body s.connector parameters st₂ with
                          | mk given st₃ =>
                              rw [watched_output houtput]
                              refine ⟨.ok ⟨call, .ok r, some (body, given.map (·.read st₃))⟩, ?_⟩
                              cases given with
                              | error f =>
                                  exact ⟨.error f, st₃, rfl, rfl, rfl,
                                    .unprocessed parameters st₂ hheard.symm
                                      (congrArg Prod.fst houtput), nofun⟩
                              | ok given =>
                                  have hhands : s.Hands
                                      (.ok ⟨call, .ok r, some (body, .ok (given.read st₃))⟩)
                                      (given.tag r.status st₃).1 _ :=
                                    .intro parameters st₂ hheard.symm houtput rfl
                                  rw [← given.read_tag] at hhands
                                  refine ⟨.ok (given.tag r.status st₃).1, (given.tag r.status st₃).2,
                                    ?_, rfl, rfl, ⟨_, hhands⟩, fun object hobject => ?_⟩
                                  · dsimp only [Except.map]
                                    rw [given.tag_beside]
                                    rfl
                                  · cases hobject
                                    exact hhands

omit [HasJournal σ] in
theorem Gives.drop_advance {s : Service σ} {r : Except Failure Visit} {t : Tensors} (h : s.Gives r t)
    (doc : Text) (more : List Text) :
    (doc :: more).drop (advance r) = more.drop (t.tensors.length - 1) := by
  -- a prediction drops one document at once and the others after the answer
  rw [h.advance_eq]
  obtain ⟨n, hn⟩ : ∃ n, max t.tensors.length 1 = n + 1 := ⟨max t.tensors.length 1 - 1, by omega⟩
  rw [hn, List.drop_succ_cons]
  congr 1
  omega

omit [HasJournal σ] in
theorem Gathers.none (s : Service σ) : s.Gathers [] (.ok []) (.ok []) :=
  ⟨fun _ => by simp, fun objects h => by cases h; exact .nil⟩

omit [HasJournal σ] in
theorem Gathers.fails (s : Service σ) (r : Except Failure Visit) (f : Failure) :
    s.Gathers [r] (.error f) (.error f) :=
  ⟨fun _ => by simp, nofun⟩

omit [HasJournal σ] in
theorem Gathers.cons {s : Service σ} {r : Except Failure Visit} {object : Handed σ} {t : Tensors}
    {rest : List (Except Failure Visit)} {handed : Except Failure (List (Handed σ))}
    {result : Except Failure (List Tensors)} (hhands : s.Hands r object t)
    (h : s.Gathers rest handed result) :
    s.Gathers (r :: rest) (handed.map (object :: ·)) (result.map (t :: ·)) := by
  obtain ⟨hfailed, hobjects⟩ := h
  constructor
  · intro f
    have hf := hfailed f
    cases handed <;> cases result <;> simp_all [Except.map]
  · intro objects hok
    cases handed with
    | error => cases hok
    | ok objects' =>
        cases hok
        exact .cons ⟨t, hhands⟩ (hobjects objects' rfl)

/-- A prediction over documents goes through rounds, and its calls are those of the rounds. -/
theorem predictFrom_rounds (s : Service σ) (total : Nat) : ∀ (docs : List Text) (seen : List Visit)
    (st : σ), ∃ rounds handed result st',
      s.watched.predictFrom total docs (seen, st) =
        (handed.map (List.map (·.beside _)), seen ++ rounds.filterMap Except.toOption, st') ∧
      s.predictFrom total docs st = (handed, st') ∧ s.Rounds docs rounds result ∧
      s.Gathers rounds handed result
  | [], seen, st => by
      rw [predictFrom, predictFrom]
      exact ⟨[], .ok [], .ok [], st, by rw [List.filterMap_nil, List.append_nil]; rfl, rfl, .done,
        .none s⟩
  | doc :: more, seen, st => by
      obtain ⟨r, handed, st₁, hwatched, hinvoke, hcall, hends, hhands⟩ :=
        s.invoke_round (batch (doc :: more)) seen st
      rw [predictFrom, predictFrom, hwatched, hinvoke]
      cases handed with
      | error f =>
          exact ⟨[r], .error f, .error f, st₁,
            by rw [List.filterMap_cons, List.filterMap_nil]; cases r <;> rfl, rfl,
            .fails (List.cons_ne_nil _ _) hcall hends, .fails s r f⟩
      | ok object =>
          have hgives : s.Gives r (object.read st₁) := hends
          let returned := (object.read st₁).tensors.length
          let noted (st : σ) : σ := if returned = 0 then
            HasJournal.log [s.emptyRecord (total - (doc :: more).length) total] st else st
          obtain ⟨rest, handed, result, st₂, hrest, hrun, hrounds, hgathers⟩ :=
            s.predictFrom_rounds total (more.drop (returned - 1))
              (seen ++ r.toOption.toList) (noted st₁)
          rw [← hgives.drop_advance doc more] at hrounds
          have hnoted : (if returned = 0 then HasJournal.log
              [s.watched.emptyRecord (total - (doc :: more).length) total]
              (seen ++ r.toOption.toList, st₁) else (seen ++ r.toOption.toList, st₁)) =
                (seen ++ r.toOption.toList, noted st₁) := by
            dsimp only [noted]
            split <;> rfl
          have hvisits : seen ++ r.toOption.toList ++ rest.filterMap Except.toOption =
              seen ++ (r :: rest).filterMap Except.toOption := by
            rw [List.append_assoc, List.filterMap_cons]
            cases r <;> rfl
          refine ⟨r :: rest, handed.map (object :: ·), result.map (object.read st₁ :: ·), st₂, ?_, ?_,
            .gives (List.cons_ne_nil _ _) hcall hgives hrounds, .cons (hhands object rfl) hgathers⟩
          · dsimp only [Except.map]
            rw [Handed.read_beside, hnoted, hrest, hvisits]
            cases handed <;> rfl
          · dsimp only
            rw [hrun]
            cases handed <;> rfl
  termination_by docs => docs.length
  decreasing_by simp only [List.length_drop, List.length_cons]; omega

theorem offset_succ (r : Except Failure Visit) (rounds : List (Except Failure Visit)) (k : Nat) :
    offset (r :: rounds) (k + 1) = advance r + offset rounds k := by
  unfold offset
  rw [List.take_succ_cons, List.map_cons, List.sum_cons]

theorem one_le_advance (r : Except Failure Visit) : 1 ≤ advance r := by
  unfold advance
  split
  next => exact Nat.le_max_right _ _
  next => exact Nat.le_refl _

omit [HasJournal σ]

theorem Gives.not_fails {s : Service σ} {r : Except Failure Visit} {t : Tensors} (h : s.Gives r t)
    (f : Failure) : ¬s.Fails r f := by
  obtain ⟨_, ⟨⟩⟩ := h
  nofun

theorem Fails.unique {s : Service σ} {r : Except Failure Visit} {f f' : Failure} (h : s.Fails r f)
    (h' : s.Fails r f') : f = f' := by
  cases h with
  | unrendered => cases h'; rfl
  | unanswered => cases h'; rfl
  | refused hheard =>
      cases h' with
      | refused hheard' => exact Except.error.inj (hheard.symm.trans hheard')
  | unprocessed => cases h'; rfl

theorem Gives.advance_default {s : Service σ} (hdefault : s.HandsDefault) {r : Except Failure Visit}
    {t : Tensors} (h : s.Gives r t) : advance r = 1 := by
  obtain ⟨_, parameters, st, _, houtput, rfl⟩ := h
  have hgiven := congrArg Prod.fst houtput
  rw [hdefault] at hgiven
  unfold Inference.defaultOutput at hgiven
  unfold advance
  cases htensor : Inference.defaultTensor _ with
  | error => rw [htensor] at hgiven; cases hgiven
  | ok tensor =>
      rw [htensor] at hgiven
      cases hgiven
      rfl

theorem Fails.advance_eq {s : Service σ} {r : Except Failure Visit} {f : Failure}
    (h : s.Fails r f) : advance r = 1 := by
  cases h <;> rfl

theorem offset_of_single {rounds : List (Except Failure Visit)}
    (hsingle : ∀ r ∈ rounds, advance r = 1) (k : Nat) : offset rounds k = min k rounds.length := by
  induction rounds generalizing k with
  | nil => rw [List.length_nil, Nat.min_zero]; cases k <;> rfl
  | cons r rest ih =>
      cases k with
      | zero => rw [Nat.zero_min]; rfl
      | succ k =>
          rw [offset_succ, hsingle r List.mem_cons_self,
            ih fun r hr => hsingle r (List.mem_cons_of_mem _ hr), List.length_cons]
          omega

namespace Rounds

variable {s : Service σ} {docs : List Text} {rounds : List (Except Failure Visit)}
  {result : Except Failure (List Tensors)}

theorem length_le (h : s.Rounds docs rounds result) : rounds.length ≤ docs.length := by
  induction h with
  | done => exact Nat.le_refl _
  | fails hdocs => exact List.length_pos_iff.mpr hdocs
  | @gives docs r t rest result hdocs _ _ _ ih =>
      have hpos := List.length_pos_iff.mpr hdocs
      have hadvance := one_le_advance r
      rw [List.length_drop] at ih
      rw [List.length_cons]
      omega

theorem made_iff (h : s.Rounds docs rounds result) (k : Nat) :
    k < rounds.length ↔
      offset rounds k < docs.length ∧ ∀ r ∈ rounds.take k, ∃ t, s.Gives r t := by
  induction h generalizing k with
  | done => exact iff_of_false (Nat.not_lt_zero _) fun h => Nat.not_lt_zero _ h.1
  | @fails docs r f hdocs _ hfails =>
      cases k with
      | zero =>
          exact iff_of_true Nat.zero_lt_one ⟨List.length_pos_iff.mpr hdocs, List.forall_mem_nil _⟩
      | succ k =>
          refine iff_of_false (by simp) fun ⟨_, hall⟩ => ?_
          obtain ⟨t, hgives⟩ := hall r (by simp)
          exact hgives.not_fails f hfails
  | @gives docs r t rest result hdocs _ hgives _ ih =>
      cases k with
      | zero =>
          exact iff_of_true (Nat.zero_lt_succ _) ⟨List.length_pos_iff.mpr hdocs, List.forall_mem_nil _⟩
      | succ k =>
          rw [offset_succ, List.take_succ_cons, List.length_cons, Nat.add_lt_add_iff_right, ih k,
            List.length_drop, List.forall_mem_cons]
          constructor
          · rintro ⟨hleft, hall⟩
            exact ⟨by omega, ⟨t, hgives⟩, hall⟩
          · rintro ⟨hleft, _, hall⟩
            exact ⟨by omega, hall⟩

theorem rendered (h : s.Rounds docs rounds result) {k : Nat} {r : Except Failure Visit}
    (hat : rounds[k]? = some r) : s.callFor (docs.drop (offset rounds k)) = r.map Visit.call := by
  induction h generalizing k with
  | done => cases hat
  | fails _ hcall _ =>
      cases k with
      | zero =>
          cases hat
          exact hcall
      | succ k => cases hat
  | gives _ hcall _ _ ih =>
      cases k with
      | zero =>
          cases hat
          exact hcall
      | succ k =>
          rw [offset_succ, ← List.drop_drop]
          exact ih hat

theorem eq_ok_iff (h : s.Rounds docs rounds result) (calls : List Tensors) :
    result = .ok calls ↔ List.Forall₂ s.Gives rounds calls := by
  induction h generalizing calls with
  | done =>
      constructor
      · rintro ⟨⟩
        exact .nil
      · rintro ⟨⟩
        rfl
  | fails _ _ hfails =>
      refine iff_of_false nofun fun hall => ?_
      cases hall with
      | cons hgives _ => exact hgives.not_fails _ hfails
  | @gives docs r t rest result _ _ hgives _ ih =>
      constructor
      · intro hresult
        cases result with
        | error f => cases hresult
        | ok calls' =>
            cases hresult
            exact .cons hgives ((ih _).mp rfl)
      · intro hall
        cases hall with
        | cons hgives' hrest =>
            rw [(ih _).mpr hrest]
            rw [hgives.unique hgives']
            rfl

theorem ok_iff (h : s.Rounds docs rounds result) :
    (∃ calls, result = .ok calls) ↔ ∀ r ∈ rounds, ∃ t, s.Gives r t := by
  induction h with
  | done => exact iff_of_true ⟨_, rfl⟩ (List.forall_mem_nil _)
  | fails _ _ hfails =>
      refine iff_of_false nofun fun hall => ?_
      obtain ⟨t, hgives⟩ := hall _ List.mem_cons_self
      exact hgives.not_fails _ hfails
  | @gives docs r t rest result _ _ hgives _ ih =>
      rw [List.forall_mem_cons, ← ih, and_iff_right ⟨t, hgives⟩]
      cases result with
      | error => exact iff_of_false nofun nofun
      | ok calls => exact iff_of_true ⟨_, rfl⟩ ⟨_, rfl⟩

theorem failed (h : s.Rounds docs rounds result) {k : Nat} {r : Except Failure Visit} {f : Failure}
    (hat : rounds[k]? = some r) (hfails : s.Fails r f) :
    k + 1 = rounds.length ∧ result = .error f := by
  induction h generalizing k with
  | done => cases hat
  | fails _ _ hfails' =>
      cases k with
      | zero =>
          cases hat
          exact ⟨rfl, by rw [hfails.unique hfails']⟩
      | succ k => cases hat
  | gives _ _ hgives _ ih =>
      cases k with
      | zero =>
          cases hat
          exact absurd hfails (hgives.not_fails f)
      | succ k =>
          obtain ⟨hlast, hresult⟩ := ih hat
          exact ⟨congrArg (· + 1) hlast, by rw [hresult]; rfl⟩

theorem ends (h : s.Rounds docs rounds result) :
    ∀ r ∈ rounds, (∃ t, s.Gives r t) ∨ ∃ f, s.Fails r f := by
  induction h with
  | done => exact List.forall_mem_nil _
  | fails _ _ hfails => exact List.forall_mem_singleton.mpr (.inr ⟨_, hfails⟩)
  | gives _ _ hgives _ ih => exact List.forall_mem_cons.mpr ⟨.inl ⟨_, hgives⟩, ih⟩

theorem covers (h : s.Rounds docs rounds result) {calls : List Tensors} (hok : result = .ok calls) :
    docs.length ≤ offset rounds rounds.length := by
  induction h generalizing calls with
  | done => exact Nat.le_refl _
  | fails => cases hok
  | @gives docs r t rest result _ _ _ _ ih =>
      cases result with
      | error => cases hok
      | ok =>
          have hrest := ih rfl
          rw [List.length_drop] at hrest
          rw [List.length_cons, offset_succ]
          omega

theorem single (hdefault : s.HandsDefault) (h : s.Rounds docs rounds result) :
    ∀ r ∈ rounds, advance r = 1 := by
  induction h with
  | done => exact List.forall_mem_nil _
  | fails _ _ hfails => exact List.forall_mem_singleton.mpr hfails.advance_eq
  | gives _ _ hgives _ ih => exact List.forall_mem_cons.mpr ⟨hgives.advance_default hdefault, ih⟩

end Rounds

section

variable {s : Service σ}

theorem given_of_own (hown : s.HandsOwn) {rounds : List (Except Failure Visit)}
    {objects : List (Handed σ)}
    (h : List.Forall₂ (fun r object => ∃ t, s.Hands r object t) rounds objects) :
    ∃ calls : List Tensors, objects = calls.map .own ∧ List.Forall₂ s.Gives rounds calls := by
  induction h with
  | nil => exact ⟨[], rfl, .nil⟩
  | cons hhands _ ih =>
      obtain ⟨t, hhands⟩ := hhands
      obtain ⟨calls, rfl, hgives⟩ := ih
      obtain rfl := hhands.eq_own hown
      exact ⟨t :: calls, rfl, .cons ⟨_, hhands⟩ hgives⟩

/-- Objects of their own are what the rounds gave. -/
theorem Gathers.eq_own (hown : s.HandsOwn) {docs : List Text} {rounds : List (Except Failure Visit)}
    {handed : Except Failure (List (Handed σ))} {result : Except Failure (List Tensors)}
    (hrounds : s.Rounds docs rounds result) (h : s.Gathers rounds handed result) :
    handed = result.map (List.map .own) := by
  cases handed with
  | error f =>
      rw [(h.failed f).mp rfl]
      rfl
  | ok objects =>
      obtain ⟨calls, rfl, hgives⟩ := given_of_own hown (h.objects objects rfl)
      rw [(hrounds.eq_ok_iff calls).mpr hgives]
      rfl

theorem HandsDefault.handsOwn (hdefault : s.HandsDefault) : s.HandsOwn := by
  intro body parameters st object hobject
  rw [hdefault] at hobject
  cases hgiven : Inference.defaultOutput body s.connector parameters with
  | error => rw [hgiven] at hobject; cases hobject
  | ok t =>
      rw [hgiven] at hobject
      cases hobject
      exact ⟨t, rfl⟩

variable [HasJournal σ]

theorem invoke_own (hown : s.HandsOwn) (q : Query) (seen : List Visit) (st : σ) :
    ∃ r result st',
      s.watched.invoke q (seen, st) = (result.map .own, seen ++ r.toOption.toList, st') ∧
      s.invoke q st = (result.map .own, st') ∧ s.callOn q = r.map Visit.call ∧
      s.Ends r result := by
  obtain ⟨r, handed, st', hwatched, hrun, hcall, hends, hhands⟩ := s.invoke_round q seen st
  have hobject : handed = (handed.map (·.read st')).map .own := by
    cases handed with
    | error => rfl
    | ok object => exact congrArg Except.ok ((hhands object rfl).eq_own hown)
  refine ⟨r, handed.map (·.read st'), st', ?_, ?_, hcall, hends⟩
  · rw [hwatched]
    rw [hobject]
    cases handed <;> rfl
  · rw [hrun, ← hobject]

theorem predictFrom_own (hown : s.HandsOwn) (total : Nat) (docs : List Text) (seen : List Visit)
    (st : σ) : ∃ rounds result st',
      s.watched.predictFrom total docs (seen, st) =
        (result.map (List.map .own), seen ++ rounds.filterMap Except.toOption, st') ∧
      s.predictFrom total docs st = (result.map (List.map .own), st') ∧
      s.Rounds docs rounds result := by
  obtain ⟨rounds, handed, result, st', hwatched, hrun, hrounds, hgathers⟩ :=
    s.predictFrom_rounds total docs seen st
  obtain rfl := hgathers.eq_own hown hrounds
  refine ⟨rounds, result, st', ?_, hrun, hrounds⟩
  rw [hwatched]
  cases result with
  | error => rfl
  | ok calls =>
      dsimp only [Except.map]
      rw [List.map_map]
      rfl

theorem predict_of_docs {docs : List Text} {st st' : σ} {result : Except Failure (List Tensors)}
    (h : s.predictFrom docs.length docs st = (result.map (List.map .own), st'))
    (function : FunctionName) : s.predict ⟨.docs docs, function⟩ st = (result.map .mk, st') := by
  unfold predict
  dsimp only
  rw [h]
  cases result with
  | error => rfl
  | ok calls =>
      dsimp only [Except.map]
      rw [Handed.map_read_own]

theorem predict_of_remote {parameters : Entries Json} {function : FunctionName} {st st' : σ}
    {result : Except Failure Tensors}
    (h : s.invoke ⟨.remote parameters, function⟩ st = (result.map .own, st')) :
    s.predict ⟨.remote parameters, function⟩ st = ((result.map ([·])).map .mk, st') := by
  unfold predict
  dsimp only
  rw [h]
  cases result <;> rfl

end

variable [HasJournal σ]

/-- A prediction over documents. Its rounds are rendered from the documents at their offsets on, and its
calls are those of the rounds that can be rendered. A round is made just when its offset lies within the
documents and all rounds before it gave tensors, so there are no more rounds than documents. The first
failure of a round ends the prediction with that error. If all give tensors, it has one output for each
round in order, which is what the object that was handed over reads in the end: for objects of their own
what the round gave, tagged with its status. With the default output processor a round goes on by one
document. -/
theorem predict_docs (s : Service σ) (docs : List Text) (function : FunctionName) (st : σ) :
    ∃ rounds result st',
      s.watched.predict ⟨.docs docs, function⟩ ([], st) =
        (result, rounds.filterMap Except.toOption, st') ∧
      s.predict ⟨.docs docs, function⟩ st = (result, st') ∧
      rounds.length ≤ docs.length ∧
      (∀ k, k < rounds.length ↔
        offset rounds k < docs.length ∧ ∀ r ∈ rounds.take k, ∃ t, s.Gives r t) ∧
      (∀ k r, rounds[k]? = some r →
        s.callFor (docs.drop (offset rounds k)) = r.map Visit.call) ∧
      (∀ r ∈ rounds, (∃ t, s.Gives r t) ∨ ∃ f, s.Fails r f) ∧
      ((∃ p, result = .ok p) ↔ ∀ r ∈ rounds, ∃ t, s.Gives r t) ∧
      (∀ calls, result = .ok ⟨calls⟩ → ∃ objects, calls = objects.map (·.read st') ∧
        List.Forall₂ (fun r object => ∃ t, s.Hands r object t) rounds objects) ∧
      (s.HandsOwn → ∀ calls, result = .ok ⟨calls⟩ ↔ List.Forall₂ s.Gives rounds calls) ∧
      (∀ k r f, rounds[k]? = some r → s.Fails r f → k + 1 = rounds.length ∧ result = .error f) ∧
      ((∀ body parameters state, (s.output body s.connector parameters state).1 =
          (Inference.defaultOutput body s.connector parameters).map .own) →
        (∀ k ≤ rounds.length, offset rounds k = k) ∧
          ∀ prediction, result = .ok prediction → rounds.length = docs.length) := by
  obtain ⟨rounds, handed, result, st', hwatched, hrun, hrounds, hgathers⟩ :=
    s.predictFrom_rounds docs.length docs [] st
  rw [List.nil_append] at hwatched
  let read (objects : List (Handed σ)) : Prediction := ⟨objects.map (·.read st')⟩
  have hok : (∃ p, handed.map read = .ok p) ↔ ∃ calls, result = .ok calls := by
    cases handed with
    | error f =>
        rw [(hgathers.failed f).mp rfl]
        exact iff_of_false nofun nofun
    | ok objects =>
        cases result with
        | error f => cases (hgathers.failed f).mpr rfl
        | ok calls => exact iff_of_true ⟨_, rfl⟩ ⟨_, rfl⟩
  refine ⟨rounds, handed.map read, st', ?_, ?_, hrounds.length_le, hrounds.made_iff,
    fun k r hat => hrounds.rendered hat, hrounds.ends, hok.trans hrounds.ok_iff,
    fun calls hcalls => ?_, fun hown calls => ?_, fun k r f hat hfails => ?_, fun hdefault => ?_⟩
  · unfold predict
    dsimp only
    rw [hwatched]
    cases handed with
    | error => rfl
    | ok objects =>
        dsimp only [Except.map, read]
        rw [List.map_map]
        simp only [Function.comp_def, Handed.read_beside]
  · unfold predict
    dsimp only
    rw [hrun]
    cases handed <;> rfl
  · cases handed with
    | error => cases hcalls
    | ok objects =>
        cases hcalls
        exact ⟨objects, rfl, hgathers.objects objects rfl⟩
  · rw [← hrounds.eq_ok_iff, hgathers.eq_own hown hrounds]
    cases result with
    | error => exact iff_of_false nofun nofun
    | ok given =>
        dsimp only [Except.map, read]
        rw [Handed.map_read_own]
        constructor <;> rintro ⟨⟩ <;> rfl
  · obtain ⟨hlast, hresult⟩ := hrounds.failed hat hfails
    exact ⟨hlast, by rw [(hgathers.failed f).mpr hresult]; rfl⟩
  · have hoffset := offset_of_single (hrounds.single hdefault)
    refine ⟨fun k hk => (hoffset k).trans (Nat.min_eq_left hk), fun prediction hprediction => ?_⟩
    obtain ⟨calls, hcalls⟩ := hok.mp ⟨prediction, hprediction⟩
    have hall := hrounds.covers hcalls
    rw [hoffset, Nat.min_self] at hall
    exact Nat.le_antisymm hrounds.length_le hall

end

/-- The calls are answered with the statuses from some on. The output processor hands over one object
each time, which the state begins with. -/
def keeping (template : Json) : Service (Tensors × Int × Journal) where
  connector :=
    { name := .str "c"
      protocol := .http
      description := .null
      version := .null
      parameters := []
      credential := []
      actions := [⟨.predict, "POST", "http://x/", none, template⟩]
      backendRoles := []
      accessMode := .null
      owner := .null
      auth := none }
  input := Inference.defaultInput
  output _ _ _ st :=
    (.ok (.kept
      { read := Prod.fst
        tag := fun status st => ({ st.1 with status := some status }, st.2)
        read_tag := fun _ _ => rfl }), st)
  execute _ st := (.ok (.ofBytes [] st.2.1 []), st.1, st.2.1 + 1, st.2.2)

def keptFrom (status : Int) : Tensors × Int × Journal :=
  (⟨[⟨"t", none, none, none⟩], none⟩, status, .start 0)

/-- A template with a parameter that nothing gives a value. -/
def lackingTemplate : Json := .str (Template.spelling .parameters "q")

/-- An object that is handed over twice has the status of the second call in both places, and a call that
cannot be rendered is not made. -/
theorem kept_object_retagged :
    (¬∀ (σ : Type) [HasJournal σ] (s : Service σ) (docs : List Text) (function : FunctionName) (st : σ)
        (p : Prediction), (s.watched.predict ⟨.docs docs, function⟩ ([], st)).1 = .ok p →
      p.calls.map Tensors.status =
        (s.watched.predict ⟨.docs docs, function⟩ ([], st)).2.1.map Visit.status?) ∧
    ¬∀ (σ : Type) [HasJournal σ] (s : Service σ) (docs : List Text) (function : FunctionName) (st : σ),
      0 < docs.length → 0 < (s.watched.predict ⟨.docs docs, function⟩ ([], st)).2.1.length := by
  constructor
  · intro hall
    have hretagged : ((keeping .null).watched.predict ⟨.docs ["a", "b"], .textEmbedding⟩
        ([], keptFrom 200)).1 =
          .ok ⟨List.replicate 2 ⟨[⟨"t", none, none, none⟩], some 201⟩⟩ := by
      decide +kernel
    have htags := hall _ _ _ _ _ _ hretagged
    revert htags
    decide +kernel
  · intro hall
    have hmade := hall _ (keeping lackingTemplate) ["a"] .textEmbedding (keptFrom 200) (by decide)
    revert hmade
    decide +kernel

end Service

end RemoteModel
