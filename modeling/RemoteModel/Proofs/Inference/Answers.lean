import RemoteModel.Proofs.Calls.Single
import RemoteModel.Proofs.Inference.Batches
import RemoteModel.Proofs.Json.RoundTrip
import RemoteModel.Proofs.Json.Written
import RemoteModel.Proofs.Text.Utf8

/-!
What a prediction makes of an answer. A document that is sent as the body of a success comes out as the
one tensor of its call, and every other status ends the prediction with the text of the body.
-/

namespace RemoteModel

/-- The body of an answer can be read and is these bytes. -/
structure Response.Carries (r : Response) (bytes : Bytes) : Prop where
  unread : r.body.isClosed = false
  body : OnWire.wire r.body = ⟨bytes, none⟩

theorem Body.close_ok (b : Body) : ∃ b', b.close = (.ok (), b') := by
  cases b with
  | memory rest closed => exact ⟨_, rfl⟩
  | streamed s => exact ⟨_, rfl⟩

theorem Response.decode_utf8 (bytes : Bytes) :
    decode "utf-8" bytes = .ok (Utf8.decodeReplacing bytes) := by
  have hname : Charset.ofName? "utf-8" = some .utf8 := by decide
  unfold decode
  rw [hname]
  cases bytes <;> rfl

theorem Response.readText_utf8 (r : Response) :
    (r.readText "utf-8").1 = (r.body.read none).1.map Utf8.decodeReplacing := by
  unfold readText
  cases r.body.read none with
  | mk result body =>
      obtain ⟨body', hclose⟩ := body.close_ok
      dsimp only
      rw [hclose]
      cases result with
      | error => rfl
      | ok bytes => exact decode_utf8 bytes

namespace Response.Carries

variable {r : Response} {bytes : Bytes}

theorem read_eq (h : r.Carries bytes) : (r.body.read none).1 = .ok bytes := by
  obtain ⟨hunread, hbody⟩ := h
  cases hr : r.body with
  | memory rest closed =>
      rw [hr] at hunread hbody
      obtain rfl : closed = false := hunread
      obtain rfl : rest = bytes := congrArg WireBody.rest hbody
      rfl
  | streamed s =>
      rw [hr] at hbody
      have hraw : s.raw = ⟨bytes, none⟩ := hbody
      change (Guarded.read none s).1 = _
      unfold Guarded.read
      rw [hraw]
      rfl

theorem heard_eq (h : r.Carries bytes) :
    r.heard = if r.isSuccess then .ok (Utf8.decodeReplacing bytes)
      else .error (.remote (.int r.status) (Utf8.decodeReplacing bytes) none) := by
  unfold heard
  rw [r.readText_utf8, h.read_eq]
  rfl

end Response.Carries

namespace Inference

/-- The fields a document stands for: its own, or the document itself under the tensor's name. -/
def mapOf : Json → Entries Json
  | .obj fields => fields
  | v => [(responseName, v)]

def tensorOf (d : Json) : Tensor := ⟨responseName, some (mapOf d), none, none⟩

theorem defaultTensor_of_parse {body : Text} {d : Json} (hbody : body ≠ [])
    (hparse : Json.parse body = .ok d) : defaultTensor body = .ok (tensorOf d) := by
  unfold defaultTensor
  split
  next => exact absurd rfl hbody
  next =>
    rw [hparse]
    cases d <;> rfl

theorem defaultOutput_render {d : Json} (htidy : Json.Everywhere Json.Tidy d)
    (hexact : Json.Everywhere Json.Exact d) (c : Connector) (parameters : Entries Json) :
    defaultOutput d.render c parameters = .ok ⟨[tensorOf d], none⟩ := by
  have hbody : d.render ≠ [] := List.length_pos_iff.mp (Json.render_ne_nil hexact.here)
  unfold defaultOutput
  rw [defaultTensor_of_parse hbody (Json.parse_render htidy hexact)]
  rfl

end Inference

namespace Service

section

variable {σ : Type} {s : Service σ}

section

variable {call : Call} {r : Response} {processed : Option (Text × Except Failure Tensors)}

theorem Gives.heard {t : Tensors} (h : s.Gives (.ok ⟨call, .ok r, processed⟩) t) :
    ∃ body, r.heard = .ok body := by
  obtain ⟨_, hhands⟩ := h
  cases hhands with
  | intro _ _ hheard => exact ⟨_, hheard⟩

theorem Fails.refused_eq {f g : Failure} (h : s.Fails (.ok ⟨call, .ok r, processed⟩) f)
    (hheard : r.heard = .error g) : processed = none ∧ f = g := by
  cases h with
  | refused hrefused => exact ⟨rfl, Except.error.inj (hrefused.symm.trans hheard)⟩
  | unprocessed _ _ hok _ => cases hok.symm.trans hheard

section

variable (hdefault : s.HandsDefault) {d : Json} (htidy : Json.Everywhere Json.Tidy d)
  (hexact : Json.Everywhere Json.Exact d) (hheard : r.heard = .ok d.render)
include hdefault htidy hexact hheard

theorem Gives.document {t : Tensors} (h : s.Gives (.ok ⟨call, .ok r, processed⟩) t) :
    processed = some (d.render, .ok ⟨[Inference.tensorOf d], none⟩) ∧
      t = ⟨[Inference.tensorOf d], some r.status⟩ := by
  obtain ⟨_, hhands⟩ := h
  cases hhands with
  | intro parameters st hbody houtput hread =>
      have hgiven := congrArg Prod.fst houtput
      cases hbody.symm.trans hheard
      rw [hdefault, Inference.defaultOutput_render htidy hexact] at hgiven
      cases hgiven
      obtain rfl := hread
      exact ⟨rfl, rfl⟩

theorem Fails.no_document {f : Failure} (h : s.Fails (.ok ⟨call, .ok r, processed⟩) f) : False := by
  cases h with
  | refused hrefused => cases hrefused.symm.trans hheard
  | unprocessed parameters st hbody hgiven =>
      cases hbody.symm.trans hheard
      rw [hdefault, Inference.defaultOutput_render htidy hexact] at hgiven
      cases hgiven

end

end

theorem get?_visits_single (r : Except Failure Visit) (k : Nat) (v : Visit) :
    ([r].filterMap Except.toOption)[k]? = some v ↔ [r][k]? = some (.ok v) := by
  cases r <;> cases k <;> simp [Except.toOption, List.filterMap_cons]

namespace Rounds

variable {docs : List Text} {rounds : List (Except Failure Visit)}
  {result : Except Failure (List Tensors)}

/-- Only the last round can stay without a call, so the calls stand where their rounds do. -/
theorem get?_visits (h : s.Rounds docs rounds result) (k : Nat) (v : Visit) :
    (rounds.filterMap Except.toOption)[k]? = some v ↔ rounds[k]? = some (.ok v) := by
  induction h generalizing k with
  | done => exact iff_of_false nofun nofun
  | @fails docs r f => exact get?_visits_single r k v
  | gives _ _ hgives _ ih =>
      obtain ⟨_, ⟨⟩⟩ := hgives
      cases k with
      | zero => simp [Except.toOption]
      | succ k => exact ih k

theorem ne_nil (h : s.Rounds docs rounds result) {f : Failure} (hfailed : result = .error f) :
    rounds ≠ [] := by
  cases h with
  | done => cases hfailed
  | fails => exact List.cons_ne_nil _ _
  | gives => exact List.cons_ne_nil _ _

theorem given (h : s.Rounds docs rounds result) {k : Nat} {r : Except Failure Visit} {t : Tensors}
    (hat : rounds[k]? = some r) (hgives : s.Gives r t) :
    (∀ calls, result = .ok calls → calls[k]? = some t) ∧
      ∀ f, result = .error f → k + 1 < rounds.length := by
  induction h generalizing k with
  | done => cases hat
  | fails _ _ hfails =>
      cases k with
      | zero =>
          cases hat
          exact absurd hfails (hgives.not_fails _)
      | succ k => cases hat
  | @gives docs r' t' rest result _ _ hgives' hrest ih =>
      cases k with
      | zero =>
          cases hat
          obtain rfl := hgives'.unique hgives
          cases result with
          | ok => exact ⟨fun calls hcalls => by cases hcalls; rfl, nofun⟩
          | error f =>
              have hmore := List.length_pos_iff.mpr (hrest.ne_nil rfl)
              exact ⟨nofun, fun _ _ => Nat.succ_lt_succ hmore⟩
      | succ k =>
          obtain ⟨hcalls, hlater⟩ := ih hat
          cases result with
          | ok calls' => exact ⟨fun calls hok => by cases hok; exact hcalls calls' rfl, nofun⟩
          | error f => exact ⟨nofun, fun _ _ => Nat.succ_lt_succ (hlater f rfl)⟩

/-- With the default output processor the rounds after one go on from the next document. -/
theorem goesOn (hdefault : s.HandsDefault) (h : s.Rounds docs rounds result) {k : Nat}
    (hmore : k + 1 < rounds.length) {f : Failure} (hfailed : result = .error f) :
    k + 1 < (rounds.filterMap Except.toOption).length ∨
      k + 1 < docs.length ∧ s.callFor (docs.drop (k + 1)) = .error f := by
  have hoffset : offset rounds (k + 1) = k + 1 := by
    rw [offset_of_single (h.single hdefault)]
    omega
  have hat := List.getElem?_eq_getElem hmore
  cases hround : rounds[k + 1] with
  | ok v =>
      rw [hround] at hat
      exact .inl (List.getElem?_eq_some_iff.mp ((h.get?_visits _ v).mpr hat)).1
  | error g =>
      rw [hround] at hat
      obtain ⟨_, hresult⟩ := h.failed hat (.unrendered g)
      cases hfailed.symm.trans hresult
      have hleft := ((h.made_iff (k + 1)).mp hmore).1
      have hcall := h.rendered hat
      rw [hoffset] at hleft hcall
      exact .inr ⟨hleft, hcall⟩

end Rounds

/-- The rounds of a query: those over its documents, or a single one for its parameters. -/
inductive Course (s : Service σ) :
    Query → List (Except Failure Visit) → Except Failure (List Tensors) → Prop
  | docs {docs : List Text} {rounds : List (Except Failure Visit)}
      {result : Except Failure (List Tensors)} (function : FunctionName) :
      s.Rounds docs rounds result → Course s ⟨.docs docs, function⟩ rounds result
  | remote {parameters : Entries Json} {function : FunctionName} {r : Except Failure Visit}
      {result : Except Failure Tensors} : s.Ends r result →
      Course s ⟨.remote parameters, function⟩ [r] (result.map ([·]))

/-- A prediction goes on after call number `k`: it makes another one, or the documents that are left
cannot be rendered. -/
def GoesOn (s : Service σ) (q : Query) (visits : List Visit) (k : Nat) (f : Failure) : Prop :=
  k + 1 < visits.length ∨
    ∃ docs, q.dataset = .docs docs ∧ k + 1 < docs.length ∧ s.callFor (docs.drop (k + 1)) = .error f

namespace Course

variable {q : Query} {rounds : List (Except Failure Visit)} {result : Except Failure (List Tensors)}

theorem get?_visits (h : s.Course q rounds result) (k : Nat) (v : Visit) :
    (rounds.filterMap Except.toOption)[k]? = some v ↔ rounds[k]? = some (.ok v) := by
  cases h with
  | docs _ hrounds => exact hrounds.get?_visits k v
  | @remote _ _ r => exact get?_visits_single r k v

/-- A round gives tensors or fails. One that fails ends the prediction; after one that gives tensors the
prediction goes on, and its tensors stand at their place in what is given together. -/
theorem ends (hdefault : s.HandsDefault) (h : s.Course q rounds result) {k : Nat}
    {r : Except Failure Visit} (hat : rounds[k]? = some r) :
    (∃ f, s.Fails r f ∧ result = .error f) ∨
      ∃ t, s.Gives r t ∧ (∀ calls, result = .ok calls → calls[k]? = some t) ∧
        ∀ f, result = .error f → s.GoesOn q (rounds.filterMap Except.toOption) k f := by
  cases h with
  | docs _ hrounds =>
      rcases hrounds.ends r (List.mem_of_getElem? hat) with ⟨t, hgives⟩ | ⟨f, hfails⟩
      · obtain ⟨hcalls, hlater⟩ := hrounds.given hat hgives
        refine .inr ⟨t, hgives, hcalls, fun f hf => ?_⟩
        rcases hrounds.goesOn hdefault (hlater f hf) hf with hmore | hleft
        · exact .inl hmore
        · exact .inr ⟨_, rfl, hleft⟩
      · exact .inl ⟨f, hfails, (hrounds.failed hat hfails).2⟩
  | @remote _ _ _ result hends =>
      cases k with
      | succ k => cases hat
      | zero =>
          cases hat
          cases result with
          | error f => exact .inl ⟨f, hends, rfl⟩
          | ok t => exact .inr ⟨t, hends, fun calls hcalls => by cases hcalls; rfl, nofun⟩

end Course

end

section

variable {σ : Type} [HasJournal σ]

theorem predict_course {s : Service σ} (hown : s.HandsOwn) (q : Query) (st : σ) :
    ∃ rounds result st',
      s.watched.predict q ([], st) = (result.map .mk, rounds.filterMap Except.toOption, st') ∧
        s.predict q st = (result.map .mk, st') ∧ s.Course q rounds result := by
  obtain ⟨dataset, function⟩ := q
  cases dataset with
  | docs docs =>
      obtain ⟨rounds, result, st', hwatched, hrun, hrounds⟩ :=
        predictFrom_own hown docs.length docs [] st
      exact ⟨rounds, result, st', predict_of_docs hwatched function, predict_of_docs hrun function,
        .docs function hrounds⟩
  | remote parameters =>
      obtain ⟨r, result, st', hwatched, hrun, _, hends⟩ :=
        invoke_own hown ⟨.remote parameters, function⟩ [] st
      refine ⟨[r], result.map ([·]), st', (predict_of_remote hwatched).trans ?_,
        predict_of_remote hrun, .remote hends⟩
      cases r <;> rfl

/-- What a prediction makes of an answer that carries some bytes. A success whose bytes are a document is
given to the output processor as it was written, and the one tensor for it, tagged with the status, is
what the prediction has for that call; a prediction that fails nevertheless fails after it. An answer with
any other status is given to no processor and ends the prediction with the status and the text. -/
theorem predict_answer (s : Service σ) (hdefault : ∀ body parameters st,
      (s.output body s.connector parameters st).1 =
        (Inference.defaultOutput body s.connector parameters).map .own)
    (q : Query) (st : σ) {k : Nat} {call : Call} {r : Response}
    {processed : Option (Text × Except Failure Tensors)}
    (hvisit : (s.watched.predict q ([], st)).2.1[k]? = some ⟨call, .ok r, processed⟩) {bytes : Bytes}
    (hcarries : r.Carries bytes) :
    (200 ≤ r.status ∧ r.status < 300 → ∀ d, Json.Everywhere Json.Tidy d →
      Json.Everywhere Json.Exact d → ∃ written, Utf8.encode? d.render = some written ∧
        (bytes = written →
          processed = some (d.render, .ok ⟨[Inference.tensorOf d], none⟩) ∧
          (∀ p, (s.predict q st).1 = .ok p →
            p.calls[k]? = some ⟨[Inference.tensorOf d], some r.status⟩) ∧
          ∀ f, (s.predict q st).1 = .error f →
            s.GoesOn q (s.watched.predict q ([], st)).2.1 k f)) ∧
    (¬(200 ≤ r.status ∧ r.status < 300) → processed = none ∧
      (s.predict q st).1 = .error (.remote (.int r.status) (Utf8.decodeReplacing bytes) none)) := by
  obtain ⟨rounds, result, st', hwatched, hrun, hcourse⟩ :=
    predict_course (HandsDefault.handsOwn hdefault) q st
  rw [hwatched] at hvisit ⊢
  rw [hrun]
  have hat := (hcourse.get?_visits k _).mp hvisit
  have hends := hcourse.ends hdefault hat
  have hheard := hcarries.heard_eq
  have hsuccess : r.isSuccess = decide (200 ≤ r.status ∧ r.status < 300) := by
    unfold Response.isSuccess
    rw [Bool.decide_and]
  rw [hsuccess] at hheard
  constructor
  · intro hstatus d htidy hexact
    rw [if_pos (decide_eq_true hstatus)] at hheard
    obtain ⟨written, hwritten⟩ : ∃ written, Utf8.encode? d.render = some written :=
      ⟨_, if_pos (Json.isWellFormed_render hexact)⟩
    refine ⟨written, hwritten, ?_⟩
    rintro rfl
    rw [Utf8.decodeReplacing_encode hwritten] at hheard
    rcases hends with ⟨f, hfails, _⟩ | ⟨t, hgives, hcalls, hlater⟩
    · exact (hfails.no_document hdefault htidy hexact hheard).elim
    · obtain ⟨hprocessed, rfl⟩ := hgives.document hdefault htidy hexact hheard
      cases result with
      | ok calls => exact ⟨hprocessed, fun p hp => by cases hp; exact hcalls calls rfl, nofun⟩
      | error f => exact ⟨hprocessed, nofun, fun g hg => by cases hg; exact hlater f rfl⟩
  · intro hstatus
    rw [if_neg (by simp [hstatus])] at hheard
    rcases hends with ⟨f, hfails, hresult⟩ | ⟨t, hgives, _⟩
    · obtain ⟨hprocessed, rfl⟩ := hfails.refused_eq hheard
      exact ⟨hprocessed, by rw [hresult]; rfl⟩
    · obtain ⟨body, hbody⟩ := hgives.heard
      cases hbody.symm.trans hheard

end

def sampleDocument : Json := .obj [("a", .int 1)]

def sampleBytes : Bytes := Utf8.encodeLoose sampleDocument.render

def sampleQuery : Query := ⟨.remote [], .remote⟩

def answeringHost : Host := { Host.start 0 with exchanges := [Executor.plainAnswer 200 sampleBytes] }

def sampleVisits : List Visit :=
  ((standard Executor.trialConnector).watched.predict sampleQuery
    ([], Executor.trialExecutor, answeringHost)).2.1

/-- What can be compared of an answer. -/
def seenOf (v : Visit) : Except Failure (Int × Bool × WireBody) :=
  v.answer.map fun r => (r.status, r.body.isClosed, OnWire.wire r.body)

theorem sampleDocument_tidy : Json.Everywhere Json.Tidy sampleDocument :=
  .obj ⟨by decide, by decide⟩ (List.forall_mem_singleton.mpr (.leaf rfl trivial))

theorem sampleDocument_exact : Json.Everywhere Json.Exact sampleDocument :=
  .obj trivial (List.forall_mem_singleton.mpr
    (.leaf rfl (by change (Text.ofNat 1).length ≤ Numeral.digitLimit; decide)))

theorem sampleVisits_head : ∃ call r processed, sampleVisits[0]? = some ⟨call, .ok r, processed⟩ ∧
    r.status = 200 ∧ r.Carries sampleBytes := by
  have hseen : sampleVisits[0]?.map seenOf = some (.ok (200, false, ⟨sampleBytes, none⟩)) := by
    decide +kernel
  obtain ⟨⟨call, answer, processed⟩, hvisit, hanswer⟩ := Option.map_eq_some_iff.mp hseen
  cases answer with
  | error => cases hanswer
  | ok r =>
      obtain ⟨hstatus, hunread, hbody⟩ : r.status = 200 ∧ r.body.isClosed = false ∧
          OnWire.wire r.body = ⟨sampleBytes, none⟩ := by
        have hall := Except.ok.inj hanswer
        exact ⟨congrArg Prod.fst hall, congrArg (·.2.1) hall, congrArg (·.2.2) hall⟩
      exact ⟨call, r, processed, hvisit, hstatus, hunread, hbody⟩

theorem sample_document_answered : ∃ call r processed,
    sampleVisits[0]? = some ⟨call, .ok r, processed⟩ ∧ r.Carries sampleBytes ∧
      processed = some (sampleDocument.render, .ok ⟨[Inference.tensorOf sampleDocument], none⟩) := by
  obtain ⟨call, r, processed, hvisit, hstatus, hcarries⟩ := sampleVisits_head
  obtain ⟨written, hwritten, hall⟩ := (predict_answer (standard Executor.trialConnector)
    (fun _ _ _ => rfl) sampleQuery (Executor.trialExecutor, answeringHost) hvisit hcarries).1
    (by rw [hstatus]; decide) sampleDocument sampleDocument_tidy sampleDocument_exact
  have hbytes : Utf8.encode? sampleDocument.render = some sampleBytes := by decide +kernel
  exact ⟨call, r, processed, hvisit, hcarries,
    (hall (Option.some.inj (hbytes.symm.trans hwritten))).1⟩

end Service

end RemoteModel
