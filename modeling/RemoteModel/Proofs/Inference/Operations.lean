import RemoteModel.Proofs.Entries
import RemoteModel.Proofs.Inference.Answers
import RemoteModel.Proofs.Results

/-!
Operations one after another on one service. Each goes as it would on a fresh service that is given the
same answers, and its calls are rendered from the connector and its own parameters.
-/

namespace RemoteModel

inductive Operation where
  | predict (q : Query)
  | download (parameters : Entries Json)

inductive Yield where
  | prediction (p : Prediction)
  | body (b : Body)

/-- An operation as it went. -/
structure Trace where
  visits : List Visit
  outcome : Except Failure Yield

namespace Operation

def action : Operation → ActionType
  | .predict _ => .predict
  | .download _ => .download

def own : Operation → Entries Json
  | .predict ⟨.docs _, _⟩ => []
  | .predict ⟨.remote parameters, _⟩ => parameters
  | .download parameters => parameters

/-- What call number `k` sends of the documents. -/
def sent (k : Nat) : Operation → Entries Json
  | .predict ⟨.docs docs, _⟩ =>
      [(Text.ofString "input", .str (Json.arr ((docs.drop k).map .str)).render)]
  | .predict ⟨.remote _, _⟩ => []
  | .download _ => []

end Operation

/-- What a download makes of an answer. -/
def Response.fetched (r : Response) : Except Failure Body :=
  if r.isSuccess then .ok r.body
  else
    match (r.readText "utf-8").1 with
    | .ok body => .error (.remote (.int r.status) body (r.header? Service.requestIdHeader))
    | .error f => .error f

namespace Service

section

variable {σ : Type} [HasJournal σ]

def perform (s : Service σ) (op : Operation) (st : σ) : Except Failure Yield × σ :=
  match op with
  | .predict q =>
      match s.predict q st with
      | (result, st) => (result.map .prediction, st)
  | .download parameters =>
      match s.download parameters st with
      | (result, st) => (result.map .body, st)

/-- Performs an operation and notes down its calls. -/
def observe (s : Service σ) (op : Operation) (st : σ) : Trace × σ :=
  match s.watched.perform op ([], st) with
  | (outcome, visits, st) => (⟨visits, outcome⟩, st)

end

/-- A service between two operations. -/
structure Session (σ : Type) where
  service : Service σ
  state : σ

namespace Session

variable {σ : Type} [HasJournal σ]

def perform (x : Session σ) (op : Operation) : Except Failure Yield × Session σ :=
  match x.service.perform op x.state with
  | (outcome, st) => (outcome, { x with state := st })

def run (x : Session σ) : List Operation → List (Except Failure Yield) × Session σ
  | [] => ([], x)
  | op :: ops =>
      match x.perform op with
      | (outcome, x) =>
          match x.run ops with
          | (outcomes, x) => (outcome :: outcomes, x)

def traces (x : Session σ) : List Operation → List Trace
  | [] => []
  | op :: ops =>
      match x.service.observe op x.state with
      | (t, st) => t :: ({ x with state := st } : Session σ).traces ops

end Session

/-- The service with the default processors. -/
def stubbed {σ : Type} (c : Connector) (execute : Call → σ → Except Failure Response × σ) :
    Service σ where
  connector := c
  input := Inference.defaultInput
  output body c parameters st := ((Inference.defaultOutput body c parameters).map .own, st)
  execute := execute

/-- The service whose calls are answered in order, whatever they are. -/
def scripted (c : Connector) : Service (List (Except Failure Response) × Journal) :=
  stubbed c fun _ st =>
    match st.1 with
    | [] => (.error Host.unreachable, st)
    | answer :: rest => (answer, rest, st.2)

/-- A trace of an operation that depends on nothing but the connector, the operation and the answers. A
parameter has the value that the documents give, or else the operation, or else the connector. -/
structure Alone (c : Connector) (op : Operation) (t : Trace) : Prop where
  fresh : ∀ j, ∃ j', (scripted c).observe op (t.visits.map Visit.answer, j) = (t, [], j')
  rendered : ∀ v ∈ t.visits, callOf c op.action v.call.parameters = .ok v.call
  value : ∀ k v, t.visits[k]? = some v → ∀ name, v.call.parameters.get? name =
    ((op.sent k).get? name).or (((Entries.ofPairs op.own).get? name).or (c.jsonParameters.get? name))

theorem parameters_of_callOf {c : Connector} {action : ActionType} {parameters : Entries Json}
    {call : Call} (h : callOf c action parameters = .ok call) : call.parameters = parameters := by
  obtain ⟨payload, _, h⟩ := ok_of_bind h
  obtain ⟨_, _, h⟩ := ok_of_bind h
  obtain ⟨endpoint, _, h⟩ := ok_of_bind h
  obtain ⟨method, _, h⟩ := ok_of_bind h
  cases h
  rfl

section

variable {σ : Type} {c : Connector} {execute : Call → σ → Except Failure Response × σ}

theorem stubbed_handsOwn (c : Connector) (execute : Call → σ → Except Failure Response × σ) :
    (stubbed c execute).HandsOwn :=
  HandsDefault.handsOwn fun _ _ _ => rfl

theorem parameters_of_callOn {q : Query} {call : Call}
    (h : (stubbed c execute).callOn q = .ok call) :
    (stubbed c execute).parameters q = .ok call.parameters ∧
      callOf c .predict call.parameters = .ok call := by
  obtain ⟨parameters, hparameters, hcall⟩ := ok_of_bind h
  obtain rfl := parameters_of_callOf hcall
  exact ⟨hparameters, hcall⟩

theorem get?_of_docs {docs : List Text} {call : Call} (h : (stubbed c execute).callFor docs = .ok call)
    (name : Text) : call.parameters.get? name =
      (Entries.get? [(Text.ofString "input", .str (Json.arr (docs.map .str)).render)] name).or
        (c.jsonParameters.get? name) := by
  have hmerged : c.jsonParameters.putAll
      [(Text.ofString "input", .str (Json.arr (docs.map .str)).render)] = call.parameters :=
    Except.ok.inj (parameters_of_callOn (q := batch docs) h).1
  rw [← hmerged, Entries.get?_putAll]
  rfl

theorem get?_of_remote {parameters : Entries Json} {function : FunctionName} {call : Call}
    (h : (stubbed c execute).callOn ⟨.remote parameters, function⟩ = .ok call) (name : Text) :
    call.parameters.get? name =
      ((Entries.ofPairs parameters).get? name).or (c.jsonParameters.get? name) := by
  have hmerged : c.jsonParameters.putAll parameters = call.parameters :=
    Except.ok.inj (parameters_of_callOn h).1
  rw [← hmerged, Entries.get?_putAll]

end

section

variable {σ : Type} {c : Connector} {execute : Call → σ → Except Failure Response × σ}

theorem scripted_bodyOf (c : Connector) (r : Response) (seen : List Visit)
    (rest : List (Except Failure Response)) (j : Journal) :
    ∃ j', (scripted c).watched.bodyOf r (seen, rest, j) = (r.heard, seen, rest, j') := by
  unfold bodyOf Response.heard
  cases r.readText "utf-8" with
  | mk text _ =>
      cases text with
      | error f => exact ⟨j, rfl⟩
      | ok body =>
          dsimp only
          cases r.isSuccess <;> exact ⟨_, rfl⟩

theorem prepared_eq (s : Service σ) (q : Query) : (do
    let parameters ← s.parameters q
    let call ← callOf s.connector .predict parameters
    return (parameters, call)) = (s.callOn q).map fun call => (call.parameters, call) := by
  unfold callOn
  cases s.parameters q with
  | error => rfl
  | ok parameters =>
      dsimp only [bind, Except.bind, pure, Except.pure]
      cases hcall : callOf s.connector .predict parameters with
      | error => rfl
      | ok call =>
          obtain rfl := parameters_of_callOf hcall
          rfl

theorem scripted_execute (c : Connector) (call : Call) (answer : Except Failure Response)
    (seen : List Visit) (rest : List (Except Failure Response)) (j : Journal) :
    (scripted c).watched.execute call (seen, answer :: rest, j) =
      (answer, seen ++ [⟨call, answer, none⟩], rest, j) :=
  rfl

/-- A round goes as it went when its call is answered as it was. -/
theorem scripted_invoke (q : Query) {r : Except Failure Visit} (result : Except Failure Tensors)
    (hcall : (stubbed c execute).callOn q = r.map Visit.call)
    (hends : (stubbed c execute).Ends r result) (seen : List Visit)
    (rest : List (Except Failure Response)) (j : Journal) :
    ∃ j', (scripted c).watched.invoke q (seen, r.toOption.toList.map Visit.answer ++ rest, j) =
      (result.map .own, seen ++ r.toOption.toList, rest, j') := by
  have hprepared := (scripted c).watched.prepared_eq q
  rw [show (scripted c).watched.callOn q = r.map Visit.call from hcall] at hprepared
  unfold invoke
  rw [hprepared]
  cases r with
  | error f =>
      have hseen : seen ++ (Except.error f : Except Failure Visit).toOption.toList = seen :=
        List.append_nil seen
      rw [hseen]
      cases result with
      | error => cases hends; exact ⟨j, rfl⟩
      | ok => obtain ⟨_, ⟨⟩⟩ := hends
  | ok v =>
      obtain ⟨call, answer, processed⟩ := v
      dsimp only [Except.map, Except.toOption, Option.toList]
      rw [List.map_singleton, List.singleton_append, scripted_execute]
      cases answer with
      | error f =>
          cases result with
          | error => cases hends; exact ⟨j, rfl⟩
          | ok => obtain ⟨_, ⟨⟩⟩ := hends
      | ok r =>
          obtain ⟨j', hbody⟩ := scripted_bodyOf c r (seen ++ [⟨call, .ok r, none⟩]) rest j
          have houtput {body : Text} {given : Except Failure Tensors}
              (hgiven : Inference.defaultOutput body c call.parameters = given) :
              (scripted c).watched.output body (scripted c).watched.connector call.parameters
                (seen ++ [⟨call, .ok r, none⟩], rest, j') =
                  (given.map .own, seen ++ [⟨call, .ok r, some (body, given)⟩], rest, j') := by
            have hscripted : (scripted c).output body (scripted c).connector call.parameters
                (rest, j') = (given.map .own, rest, j') := by
              rw [← hgiven]
              rfl
            refine (watched_output hscripted seen call (.ok r)).trans ?_
            cases given <;> rfl
          refine ⟨j', ?_⟩
          dsimp only
          rw [hbody]
          cases result with
          | error f =>
              cases hends with
              | refused hheard => rw [hheard]
              | unprocessed _ _ hheard hgiven =>
                  rw [hheard]
                  dsimp only
                  rw [houtput (error_of_map.mp hgiven)]
                  rfl
          | ok t =>
              obtain ⟨_, _, _, hheard, hstubbed, hread⟩ := hends
              obtain ⟨t', hgiven, rfl⟩ := ok_of_map.mp (congrArg Prod.fst hstubbed)
              obtain rfl := hread
              rw [hheard]
              dsimp only
              rw [houtput hgiven]
              rfl

theorem scripted_predictFrom {docs : List Text} {rounds : List (Except Failure Visit)}
    {result : Except Failure (List Tensors)} (h : (stubbed c execute).Rounds docs rounds result)
    (total : Nat) (seen : List Visit) (rest : List (Except Failure Response)) (j : Journal) :
    ∃ j', (scripted c).watched.predictFrom total docs
      (seen, (rounds.filterMap Except.toOption).map Visit.answer ++ rest, j) =
        (result.map (List.map .own), seen ++ rounds.filterMap Except.toOption, rest, j') := by
  have hvisits (r : Except Failure Visit) (rounds : List (Except Failure Visit)) :
      (r :: rounds).filterMap Except.toOption =
        r.toOption.toList ++ rounds.filterMap Except.toOption := by
    rw [List.filterMap_cons]
    cases r <;> rfl
  induction h generalizing seen j with
  | done =>
      rw [predictFrom]
      exact ⟨j, by rw [List.filterMap_nil, List.append_nil]; rfl⟩
  | @fails docs r f hdocs hcall hfails =>
      obtain ⟨doc, more, rfl⟩ := List.exists_cons_of_ne_nil hdocs
      obtain ⟨j', hround⟩ := scripted_invoke (batch (doc :: more)) (.error f) hcall hfails
        seen rest j
      rw [hvisits, List.filterMap_nil, List.append_nil, predictFrom, hround]
      exact ⟨j', rfl⟩
  | @gives docs r t rounds result hdocs hcall hgives _ ih =>
      obtain ⟨doc, more, rfl⟩ := List.exists_cons_of_ne_nil hdocs
      obtain ⟨j₁, hround⟩ := scripted_invoke (batch (doc :: more)) (.ok t) hcall hgives seen
        ((rounds.filterMap Except.toOption).map Visit.answer ++ rest) j
      rw [hvisits, List.map_append, List.append_assoc, predictFrom, hround]
      dsimp only [Except.map, Handed.read]
      rw [← hgives.drop_advance doc more]
      obtain ⟨j₂, hnoted⟩ : ∃ j₂, (if t.tensors.length = 0 then
          HasJournal.log [(scripted c).watched.emptyRecord (total - (doc :: more).length) total]
            (seen ++ r.toOption.toList,
              (rounds.filterMap Except.toOption).map Visit.answer ++ rest, j₁)
          else (seen ++ r.toOption.toList,
            (rounds.filterMap Except.toOption).map Visit.answer ++ rest, j₁)) =
              (seen ++ r.toOption.toList,
                (rounds.filterMap Except.toOption).map Visit.answer ++ rest, j₂) := by
        split <;> exact ⟨_, rfl⟩
      obtain ⟨j₃, hrest⟩ := ih (seen ++ r.toOption.toList) j₂
      rw [hnoted, hrest, List.append_assoc]
      exact ⟨j₃, by cases result <;> rfl⟩

end

section

variable {σ : Type}

theorem download_eq (s : Service σ) (parameters : Entries Json) (st : σ) :
    s.download parameters st =
      match callOf s.connector .download (s.connector.jsonParameters.putAll parameters) with
      | .error f => (.error f, st)
      | .ok call => ((s.execute call st).1 >>= Response.fetched, (s.execute call st).2) := by
  unfold download
  dsimp only
  cases callOf s.connector .download (s.connector.jsonParameters.putAll parameters) with
  | error => rfl
  | ok call =>
      dsimp only
      cases s.execute call st with
      | mk answer st' =>
          cases answer with
          | error => rfl
          | ok r =>
              dsimp only [bind, Except.bind]
              unfold Response.fetched
              split
              next => rfl
              next =>
                cases r.readText "utf-8" with
                | mk text _ => cases text <;> rfl

variable [HasJournal σ] {c : Connector} {execute : Call → σ → Except Failure Response × σ}

theorem docs_alone (docs : List Text) (function : FunctionName) (st : σ) : ∃ t st',
    (stubbed c execute).observe (.predict ⟨.docs docs, function⟩) st = (t, st') ∧
      (stubbed c execute).perform (.predict ⟨.docs docs, function⟩) st = (t.outcome, st') ∧
      Alone c (.predict ⟨.docs docs, function⟩) t := by
  unfold observe perform
  obtain ⟨rounds, result, st', hwatched, hrun, hrounds⟩ :=
    predictFrom_own (stubbed_handsOwn c execute) docs.length docs [] st
  dsimp only
  rw [predict_of_docs hwatched function, predict_of_docs hrun function]
  -- one tensor comes of every answer, so call number `k` is that for the documents from `k` on
  have hcall {k : Nat} {v : Visit} (hv : (rounds.filterMap Except.toOption)[k]? = some v) :
      (stubbed c execute).callFor (docs.drop k) = .ok v.call := by
    have hat := (hrounds.get?_visits k v).mp hv
    have hmade := (List.getElem?_eq_some_iff.mp hat).1
    have hoffset : offset rounds k = k := by
      rw [offset_of_single (hrounds.single fun _ _ _ => rfl)]
      exact Nat.min_eq_left (Nat.le_of_lt hmade)
    have hrendered := hrounds.rendered hat
    rw [hoffset] at hrendered
    exact hrendered
  refine ⟨⟨rounds.filterMap Except.toOption, (result.map .mk).map .prediction⟩, st',
    rfl, rfl, fun j => ?_, fun v hv => ?_, fun k v hv name => get?_of_docs (hcall hv) name⟩
  · obtain ⟨j', hfresh⟩ := scripted_predictFrom hrounds docs.length [] [] j
    rw [List.append_nil] at hfresh
    refine ⟨j', ?_⟩
    unfold observe perform
    dsimp only
    rw [predict_of_docs hfresh function]
    rfl
  · obtain ⟨k, hk⟩ := List.mem_iff_getElem?.mp hv
    exact (parameters_of_callOn (hcall hk)).2

theorem remote_alone (parameters : Entries Json) (function : FunctionName) (st : σ) : ∃ t st',
    (stubbed c execute).observe (.predict ⟨.remote parameters, function⟩) st = (t, st') ∧
      (stubbed c execute).perform (.predict ⟨.remote parameters, function⟩) st =
        (t.outcome, st') ∧
      Alone c (.predict ⟨.remote parameters, function⟩) t := by
  unfold observe perform
  obtain ⟨r, result, st', hwatched, hrun, hcall, hends⟩ :=
    invoke_own (stubbed_handsOwn c execute) ⟨.remote parameters, function⟩ [] st
  dsimp only
  rw [predict_of_remote hwatched, predict_of_remote hrun]
  have hmade {v : Visit} (hv : v ∈ r.toOption.toList) :
      (stubbed c execute).callOn ⟨.remote parameters, function⟩ = .ok v.call := by
    rw [hcall, toOption_eq_some.mp (Option.mem_toList.mp hv)]
    rfl
  refine ⟨⟨r.toOption.toList, ((result.map ([·])).map .mk).map .prediction⟩, st', rfl, rfl,
    fun j => ?_, fun v hv => (parameters_of_callOn (hmade hv)).2,
    fun k v hv name => get?_of_remote (hmade (List.mem_of_getElem? hv)) name⟩
  obtain ⟨j', hfresh⟩ := scripted_invoke _ _ hcall hends [] [] j
  rw [List.append_nil] at hfresh
  refine ⟨j', ?_⟩
  unfold observe perform
  dsimp only
  rw [predict_of_remote hfresh]
  rfl

theorem observe_download (s : Service σ) (parameters : Entries Json) (st : σ) :
    s.observe (.download parameters) st =
      match callOf s.connector .download (s.connector.jsonParameters.putAll parameters) with
      | .error f => (⟨[], .error f⟩, st)
      | .ok call => (⟨[⟨call, (s.execute call st).1, none⟩],
          ((s.execute call st).1 >>= Response.fetched).map .body⟩, (s.execute call st).2) := by
  unfold observe perform
  dsimp only
  rw [download_eq, show s.watched.connector = s.connector from rfl]
  cases callOf s.connector .download (s.connector.jsonParameters.putAll parameters) with
  | error => rfl
  | ok call =>
      dsimp only
      rw [watched_execute rfl]
      rfl

theorem download_alone (parameters : Entries Json) (st : σ) : ∃ t st',
    (stubbed c execute).observe (.download parameters) st = (t, st') ∧
      (stubbed c execute).perform (.download parameters) st = (t.outcome, st') ∧
      Alone c (.download parameters) t := by
  have hconnector : (stubbed c execute).connector = c := rfl
  have hscripted : (scripted c).connector = c := rfl
  rw [observe_download]
  unfold perform
  dsimp only
  rw [download_eq, hconnector]
  cases hcall : callOf c .download (c.jsonParameters.putAll parameters) with
  | error f =>
      refine ⟨⟨[], .error f⟩, st, rfl, rfl, fun j => ⟨j, ?_⟩, List.forall_mem_nil _,
        fun k v hv => ?_⟩
      · rw [observe_download, hscripted, hcall]
        rfl
      · cases hv
  | ok call =>
      have hparameters := parameters_of_callOf hcall
      refine ⟨⟨[⟨call, (execute call st).1, none⟩],
        ((execute call st).1 >>= Response.fetched).map .body⟩, (execute call st).2, rfl, rfl,
        fun j => ⟨j, ?_⟩, fun v hv => ?_, fun k v hv name => ?_⟩
      · rw [observe_download, hscripted, hcall]
        rfl
      · obtain rfl := List.mem_singleton.mp hv
        dsimp only
        rw [hparameters]
        exact hcall
      · obtain rfl := List.mem_singleton.mp (List.mem_of_getElem? hv)
        dsimp only
        rw [hparameters, Entries.get?_putAll]
        rfl

theorem observe_alone (execute : Call → σ → Except Failure Response × σ) (op : Operation) (st : σ) :
    ∃ t st',
    (stubbed c execute).observe op st = (t, st') ∧
      (stubbed c execute).perform op st = (t.outcome, st') ∧ Alone c op t := by
  cases op with
  | predict q =>
      obtain ⟨dataset, function⟩ := q
      cases dataset with
      | docs docs => exact docs_alone docs function st
      | remote parameters => exact remote_alone parameters function st
  | download parameters => exact download_alone parameters st

/-- However many operations went before, each one makes the calls and has the outcome that it has on a
fresh service whose calls are answered alike. The connector is what it was. -/
theorem run_alone (c : Connector) (execute : Call → σ → Except Failure Response × σ) (st : σ)
    (ops : List Operation) : ∃ traces y,
      (Session.mk (stubbed c execute) st).traces ops = traces ∧
      (Session.mk (stubbed c execute) st).run ops = (traces.map Trace.outcome, y) ∧
      y.service.connector.toJson = c.toJson ∧ List.Forall₂ (Alone c) ops traces := by
  induction ops generalizing st with
  | nil => exact ⟨[], ⟨stubbed c execute, st⟩, rfl, rfl, rfl, .nil⟩
  | cons op ops ih =>
      obtain ⟨t, st', hobserve, hperform, halone⟩ := observe_alone execute op st
      obtain ⟨traces, y, htraces, hrun, hkept, hall⟩ := ih st'
      refine ⟨t :: traces, y, ?_, ?_, hkept, .cons halone hall⟩
      · unfold Session.traces
        rw [hobserve]
        exact congrArg (t :: ·) htraces
      · unfold Session.run Session.perform
        rw [hperform]
        dsimp only
        rw [hrun]
        rfl

end

end Service

end RemoteModel
