import RemoteModel.Proofs.Entries
import RemoteModel.Proofs.Inference.Answers
import RemoteModel.Proofs.Json.Frames
import RemoteModel.Proofs.Template

/-!
Payloads of predictions over documents. What is sent is the document of the template with the documents
that are left at its hole; but a document that holds the spelling of a placeholder is taken for a template
that was not filled, and nothing is sent at all.
-/

namespace RemoteModel

namespace Template

theorem escapeRune_name {r : Rune} (hr : isNameRune r = true) : Json.escapeRune r = [r] := by
  have hcode : 0x20 ≤ r.code ∧ r.code < 0x7F ∧ r.code ≠ 0x22 ∧ r.code ≠ 0x5C := by
    unfold isNameRune Rune.isAsciiLetter Rune.isAsciiUpper Rune.isAsciiLower Rune.isDigit at hr
    simp only [Bool.or_eq_true, Bool.and_eq_true, decide_eq_true_eq] at hr
    rcases hr with ((((h | h) | h) | rfl) | rfl) | rfl
    iterate 3 omega
    all_goals decide
  obtain ⟨hlow, hhigh, hquote, hslash⟩ := hcode
  unfold Json.escapeRune
  dsimp only
  rw [if_neg hquote, if_neg hslash, if_neg (by omega), if_neg (by omega), if_neg (by omega),
    if_neg (by omega), if_neg (by omega), if_pos ⟨hlow, hhigh⟩]

/-- The spelling of a hole is written as it stands. -/
theorem escaped_spelling (scope : Scope) {name : Text} (hname : IsName name) :
    (spelling scope name).flatMap Json.escapeRune = spelling scope name := by
  have hself : ∀ r ∈ spelling scope name, Json.escapeRune r = [r] := by
    intro r hr
    rcases List.mem_cons.mp hr with rfl | hr
    · rfl
    · by_cases hrune : isNameRune r = true
      · exact escapeRune_name hrune
      · by_cases hopen : r = .scalar '\x7b'
        · rw [hopen]
          rfl
        · by_cases hclose : r = .scalar '\x7d'
          · rw [hclose]
            rfl
          · exact absurd ⟨Bool.eq_false_of_not_eq_true hrune, hopen, hclose⟩ (not_breaks scope hname hr)
  rw [List.flatMap_congr hself, List.flatMap_singleton']

/-- What holds neither quotes nor backslashes is at the front of a written text only where it is at the
front of the text. -/
theorem prefix_of_escaped {w t rest : Text} (hw : ∀ r ∈ w, r ≠ .scalar '"' ∧ r ≠ .scalar '\\')
    (h : w <+: t.flatMap Json.escapeRune ++ .scalar '"' :: rest) : w <+: t := by
  induction w generalizing t with
  | nil => exact List.nil_prefix
  | cons a w ih =>
      obtain ⟨⟨hquote, hslash⟩, hw⟩ := List.forall_mem_cons.mp hw
      cases t with
      | nil => exact absurd (List.cons_prefix_cons.mp h).1 hquote
      | cons r t =>
          rw [List.flatMap_cons, List.append_assoc] at h
          rcases (Json.escape_escapeRune r).front with hself | ⟨⟨more, hmore⟩, _⟩
          · rw [hself] at h
            obtain ⟨rfl, hrest⟩ := List.cons_prefix_cons.mp h
            exact List.cons_prefix_cons.mpr ⟨rfl, ih hw hrest⟩
          · rw [hmore] at h
            exact absurd (List.cons_prefix_cons.mp h).1 hslash

theorem hole_escaped {r : Rune} {t : Text} (h : hole? (r :: t) = none)
    (hself : Json.escapeRune r = [r]) (rest : Text) :
    hole? (r :: (t.flatMap Json.escapeRune ++ .scalar '"' :: rest)) = none := by
  refine Option.eq_none_iff_forall_ne_some.mpr fun ⟨scope, name⟩ hhole => ?_
  obtain ⟨hname, hspelling⟩ := hole_iff.mp hhole
  have hmarks : ∀ s ∈ spelling scope name, s ≠ .scalar '"' ∧ s ≠ .scalar '\\' := by
    intro s hs
    rcases List.mem_cons.mp hs with rfl | hs
    · decide
    · have hbreaks := not_breaks scope hname hs
      constructor
      · rintro rfl
        exact hbreaks (by decide)
      · rintro rfl
        exact hbreaks (by decide)
  have hwritten : spelling scope name <+:
      (r :: t).flatMap Json.escapeRune ++ .scalar '"' :: rest := by
    rw [List.flatMap_cons, hself]
    exact hspelling
  cases h.symm.trans (hole_iff.mpr ⟨hname, prefix_of_escaped hmarks hwritten⟩)

/-- The placeholders of a written text are those of the text. -/
theorem placeholders_escaped (t rest : Text) :
    placeholders (t.flatMap Json.escapeRune ++ .scalar '"' :: rest) =
      placeholders t ++ placeholders rest := by
  -- a hole is written as it stands, and a rune that starts none starts none when it is written
  induction t using pieces_induction with
  | nil => exact placeholders_rune (hole_of_ne (by decide) rest)
  | hole scope name t hname ih =>
      rw [List.flatMap_append, escaped_spelling scope hname, List.append_assoc,
        placeholders_hole hname, placeholders_hole hname, ih, List.cons_append]
  | rune r t hfront ih =>
      rw [List.flatMap_cons, List.append_assoc, placeholders_rune hfront]
      rcases (Json.escape_escapeRune r).front with hself | ⟨_, hdollar⟩
      · rw [hself, List.singleton_append, placeholders_rune (hole_escaped hfront hself rest), ih]
      · rw [placeholders_plain fun s hs heq => hdollar (heq ▸ hs), ih]

theorem placeholders_renderText (t rest : Text) :
    placeholders (Json.renderText t ++ rest) = placeholders t ++ placeholders rest := by
  rw [Json.renderText_append, placeholders_rune (hole_of_ne (by decide) _), placeholders_escaped]

theorem placeholders_renderItems (ts : List Text) (rest : Text) :
    placeholders (Json.renderItems (ts.map .str) ++ rest) =
      ts.flatMap placeholders ++ placeholders rest := by
  induction ts with
  | nil => exact placeholders_rune (hole_of_ne (by decide) rest)
  | cons t ts ih =>
      rw [List.map_cons, Json.renderItems, List.cons_append, List.cons_append, List.append_assoc,
        placeholders_rune (hole_of_ne (by decide) _), placeholders_rune (hole_of_ne (by decide) _),
        Json.render, placeholders_renderText, ih, List.flatMap_cons, List.append_assoc]

theorem placeholders_texts (ts : List Text) (rest : Text) :
    placeholders ((Json.arr (ts.map .str)).render ++ rest) =
      ts.flatMap placeholders ++ placeholders rest := by
  cases ts with
  | nil => exact placeholders_plain (t := [.scalar '[', .scalar ']']) (by decide) rest
  | cons t ts =>
      rw [List.map_cons, Json.render, List.cons_append, List.append_assoc,
        placeholders_rune (hole_of_ne (by decide) _), Json.render, placeholders_renderText,
        placeholders_renderItems, List.flatMap_cons, List.append_assoc]

end Template

/-- A prediction through the connector sends a document with the documents at its one hole. -/
structure Connector.Asks (c : Connector) (before after : Text) : Prop where
  action : ∃ a, c.action .predict = .ok a ∧
    a.body = .str (before ++ (Template.spelling .parameters "input" ++ after)) ∧
    Template.placeholders a.url = []
  before : Template.placeholders before = []
  after : Template.placeholders after = []

/-- The template of the body with documents in it. -/
def payloadOf (before after : Text) (docs : List Text) : Text :=
  before ++ ((Json.arr (docs.map .str)).render ++ after)

namespace Connector.Asks

variable {c : Connector} {before after : Text}

theorem placeholders_payload (hasks : c.Asks before after) (docs : List Text) :
    Template.placeholders (payloadOf before after docs) = docs.flatMap Template.placeholders := by
  obtain ⟨tail, htail⟩ : ∃ tail, (Json.arr (docs.map .str)).render = .scalar '[' :: tail := by
    cases docs <;> exact ⟨_, rfl⟩
  have hcut := Template.placeholders_append (s := .scalar '[') (by decide) before (tail ++ after)
  have hall := Template.placeholders_texts docs after
  rw [htail, List.cons_append] at hall
  unfold payloadOf
  rw [htail, List.cons_append, hcut, hall, hasks.before, hasks.after, List.nil_append,
    List.append_nil]

theorem isName_input : Template.IsName "input" := ⟨by decide, by decide⟩

theorem payload_eq (hasks : c.Asks before after) {parameters : Entries Json} {docs : List Text}
    (hinput : parameters.get? "input" = some (.str (Json.arr (docs.map .str)).render)) :
    c.payload .predict parameters = .ok (some (payloadOf before after docs)) := by
  obtain ⟨a, haction, hbody, -⟩ := hasks.action
  have hvalue : Template.Values.ofEntries parameters "input" = some (Json.arr (docs.map .str)).render := by
    unfold Template.Values.ofEntries
    rw [hinput]
    rfl
  have hfill : fill "payload" parameters
      (before ++ (Template.spelling .parameters "input" ++ after)) =
        .ok (payloadOf before after docs) :=
    Template.render_hole hasks.before hasks.after isName_input hvalue
  unfold payload
  rw [haction]
  dsimp only [bind, Except.bind]
  rw [hbody]
  dsimp only
  rw [hfill]
  rfl

theorem endpoint_ok (hasks : c.Asks before after) (parameters : Entries Json) :
    ∃ url, c.endpoint .predict parameters = .ok url := by
  obtain ⟨a, haction, -, hurl⟩ := hasks.action
  refine ⟨a.url, ?_⟩
  unfold endpoint
  rw [haction]
  exact Template.render_closed hurl

theorem method_ok (hasks : c.Asks before after) : ∃ method, c.method .predict = .ok method := by
  obtain ⟨a, haction, -, -⟩ := hasks.action
  refine ⟨a.method, ?_⟩
  unfold method
  rw [haction]
  rfl

end Connector.Asks

theorem checkPayload_document {t : Text} {v : Json} (hparse : Json.parse t = .ok v)
    (hclosed : Template.placeholders t = []) : checkPayload (some t) = .ok () := by
  unfold checkPayload
  split
  next => rfl
  next => rfl
  next heq =>
    cases heq
    rw [hclosed, hparse]

theorem checkPayload_unfilled {t hole : Text} {more : List Text}
    (hopen : Template.placeholders t = hole :: more) :
    checkPayload (some t) = .error (.unfilled "payload" (hole :: more)) := by
  unfold checkPayload
  split
  next heq => cases heq
  next heq =>
    cases heq
    cases hopen
  next heq =>
    cases heq
    rw [hopen]

namespace Service

variable {σ : Type} {s : Service σ} {before after : Text}

/-- The documents are among the parameters, under the name `input`. -/
theorem parameters_batch (hinput : s.input = Inference.defaultInput) (docs : List Text) :
    ∃ parameters, s.parameters (batch docs) = .ok parameters ∧
      parameters.get? "input" = some (.str (Json.arr (docs.map .str)).render) := by
  unfold parameters
  rw [hinput]
  exact ⟨_, rfl, Entries.get?_put_self _ _ _⟩

theorem callFor_eq (hinput : s.input = Inference.defaultInput) (hasks : s.connector.Asks before after)
    (docs : List Text) : ∃ url method parameters, s.callFor docs = do
      checkPayload (some (payloadOf before after docs))
      return ⟨url, some method, some (payloadOf before after docs), .predict, parameters⟩ := by
  obtain ⟨parameters, hparameters, hdocs⟩ := parameters_batch hinput docs
  obtain ⟨url, hurl⟩ := hasks.endpoint_ok parameters
  obtain ⟨method, hmethod⟩ := hasks.method_ok
  refine ⟨url, method, parameters, ?_⟩
  unfold callFor callOf
  rw [hparameters]
  dsimp only [bind, Except.bind]
  rw [hasks.payload_eq hdocs, hurl, hmethod]

/-- Documents without placeholders are rendered. -/
theorem callFor_closed (hinput : s.input = Inference.defaultInput)
    (hasks : s.connector.Asks before after) {docs : List Text} {v : Json}
    (hparse : Json.parse (payloadOf before after docs) = .ok v)
    (hclosed : docs.flatMap Template.placeholders = []) : ∃ call, s.callFor docs = .ok call := by
  obtain ⟨url, method, parameters, hcall⟩ := callFor_eq hinput hasks docs
  rw [← hasks.placeholders_payload] at hclosed
  rw [checkPayload_document hparse hclosed] at hcall
  exact ⟨_, hcall⟩

/-- Documents with placeholders are not. -/
theorem callFor_unfilled (hinput : s.input = Inference.defaultInput)
    (hasks : s.connector.Asks before after) {docs : List Text} {hole : Text} {more : List Text}
    (hopen : docs.flatMap Template.placeholders = hole :: more) :
    s.callFor docs = .error (.unfilled "payload" (hole :: more)) := by
  obtain ⟨url, method, parameters, hcall⟩ := callFor_eq hinput hasks docs
  rw [← hasks.placeholders_payload] at hopen
  rw [hcall, checkPayload_unfilled hopen]
  rfl

theorem callFor_payload (hinput : s.input = Inference.defaultInput)
    (hasks : s.connector.Asks before after) {docs : List Text} {call : Call}
    (hcall : s.callFor docs = .ok call) : call.payload = some (payloadOf before after docs) ∧
      checkPayload (some (payloadOf before after docs)) = .ok () := by
  obtain ⟨url, method, parameters, heq⟩ := callFor_eq hinput hasks docs
  obtain ⟨_, hcheck, hmade⟩ := ok_of_bind (heq.symm.trans hcall)
  cases hmade
  exact ⟨rfl, hcheck⟩

theorem Rounds.unrendered {docs : List Text} {rounds : List (Except Failure Visit)}
    {result : Except Failure (List Tensors)} (h : s.Rounds docs rounds result) (hdocs : docs ≠ [])
    {f : Failure} (hcall : s.callFor docs = .error f) :
    rounds.filterMap Except.toOption = [] ∧ result = .error f := by
  cases h with
  | done => exact absurd rfl hdocs
  | @fails _ r _ _ hmade hfails =>
      cases r with
      | ok v => cases hcall.symm.trans hmade
      | error g =>
          cases hcall.symm.trans hmade
          cases hfails
          exact ⟨rfl, rfl⟩
  | gives _ hmade hgives =>
      obtain ⟨_, ⟨⟩⟩ := hgives
      cases hcall.symm.trans hmade

theorem ne_nil_of_left {docs : List Text} {k : Nat} (h : k < docs.length) : docs.drop k ≠ [] :=
  fun hnil => Nat.not_le.mpr h (List.drop_eq_nil_iff.mp hnil)

theorem joined_of_wellFormed {docs : List Text} (hdocs : ∀ d ∈ docs, d.isWellFormed = true) :
    docs.map (fun d => Json.str (Json.joined d)) = docs.map .str :=
  List.map_congr_left fun d hd => by rw [Json.joined_of_scalars (hdocs d hd)]

variable [HasJournal σ]

/-- Predictions over documents, through a connector whose template has a hole for the documents. There is
one document with a hole that every call sends, the hole filled with an array of the documents that are
left. All calls can be rendered when the documents hold no placeholders; when one does, the placeholders
of the documents are reported as if the template were not filled, and no call is made. -/
theorem predict_payloads (s : Service σ) (hinput : s.input = Inference.defaultInput)
    (houtput : ∀ body parameters st, (s.output body s.connector parameters st).1 =
      (Inference.defaultOutput body s.connector parameters).map .own)
    {before after : Text} (hasks : s.connector.Asks before after) {v : Json}
    (hvalid : Json.parse (before ++ (Json.sample ++ after)) = .ok v) :
    ∃ frames, v = Json.within frames Json.sampleValue ∧
      ∀ docs, docs ≠ [] → ∀ function st,
        (∀ k visit, (s.watched.predict ⟨.docs docs, function⟩ ([], st)).2.1[k]? = some visit →
          ∃ t, visit.call.payload = some t ∧ checkPayload (some t) = .ok () ∧
            Json.parse t = .ok (Json.within frames
              (.arr ((docs.drop k).map fun d => .str (Json.joined d)))) ∧
            ((∀ d ∈ docs, d.isWellFormed = true) →
              Json.parse t = .ok (Json.within frames (.arr ((docs.drop k).map .str))))) ∧
        (docs.flatMap Template.placeholders = [] →
          ∀ k < docs.length, ∃ call, s.callFor (docs.drop k) = .ok call) ∧
        ∀ hole more, docs.flatMap Template.placeholders = hole :: more →
          (s.watched.predict ⟨.docs docs, function⟩ ([], st)).2.1 = [] ∧
            (s.predict ⟨.docs docs, function⟩ st).1 = .error (.unfilled "payload" (hole :: more)) := by
  obtain ⟨frames, rfl, htexts⟩ := Json.parse_texts hvalid
  refine ⟨frames, rfl, fun docs hdocs function st => ?_⟩
  obtain ⟨rounds, result, st', hwatched, hrun, hcourse⟩ :=
    predict_course (HandsDefault.handsOwn houtput) ⟨.docs docs, function⟩ st
  rw [hwatched, hrun]
  cases hcourse with
  | docs _ hrounds =>
      refine ⟨fun k visit hvisit => ?_, fun hclosed k hk => ?_, fun hole more hopen => ?_⟩
      · have hat := (hrounds.get?_visits k visit).mp hvisit
        have hmade := (List.getElem?_eq_some_iff.mp hat).1
        -- the default processor gives one tensor, so round `k` is that for the documents from `k` on
        have hoffset : offset rounds k = k := by
          rw [offset_of_single (hrounds.single houtput)]
          exact Nat.min_eq_left (Nat.le_of_lt hmade)
        have hcall := hrounds.rendered hat
        have hleft := ((hrounds.made_iff k).mp hmade).1
        rw [hoffset] at hcall hleft
        have hrest := htexts (docs.drop k) (ne_nil_of_left hleft)
        obtain ⟨hpayload, hcheck⟩ := callFor_payload hinput hasks hcall
        refine ⟨_, hpayload, hcheck, hrest, fun hformed => ?_⟩
        rw [joined_of_wellFormed fun d hd => hformed d (List.mem_of_mem_drop hd)] at hrest
        exact hrest
      · have hrest := htexts (docs.drop k) (ne_nil_of_left hk)
        refine callFor_closed hinput hasks hrest ?_
        exact List.flatMap_eq_nil_iff.mpr fun d hd =>
          List.flatMap_eq_nil_iff.mp hclosed d (List.mem_of_mem_drop hd)
      · obtain ⟨hnone, rfl⟩ := hrounds.unrendered hdocs (callFor_unfilled hinput hasks hopen)
        exact ⟨hnone, rfl⟩

def askingBefore : Text := "\x7b\"input\": "

def askingAfter : Text := "\x7d"

/-- A connector whose body is an object with the documents in its one field. -/
def askingDocument : Json :=
  .obj [("name", .str "c"), ("protocol", .str "http"), ("actions", .arr [.obj [
    ("action_type", .str "PREDICT"), ("method", .str "POST"), ("url", .str "http://x/"),
    ("request_body",
      .str (askingBefore ++ (Template.spelling .parameters "input" ++ askingAfter)))]])]

def asking : Connector :=
  { Executor.trialConnector with actions := [⟨.predict, "POST", "http://x/", none,
    .str (askingBefore ++ (Template.spelling .parameters "input" ++ askingAfter))⟩] }

def askingExecutor : Executor := { Executor.trialExecutor with connector := asking }

/-- A document that spells the placeholder of the documents themselves. -/
def spellingDoc : Text := Template.spelling .parameters "input"

theorem asking_created : Connector.ofJson askingDocument = .ok asking ∧
    Executor.ofConnector asking Executor.trialSettings none (Host.start 0) =
      (.ok askingExecutor, Host.start 0) :=
  ⟨by decide +kernel, rfl⟩

theorem asking_asks : asking.Asks askingBefore askingAfter where
  action := ⟨_, rfl, rfl, by decide +kernel⟩
  before := by decide +kernel
  after := by decide +kernel

theorem asking_valid : Json.parse (askingBefore ++ (Json.sample ++ askingAfter)) =
    .ok (.obj [("input", Json.sampleValue)]) := by
  decide +kernel

theorem asking_payloads : (∃ call, (standard asking).callFor ["a\"b", "\n"] = .ok call) ∧
    ((standard asking).predict ⟨.docs ["a", spellingDoc], .textEmbedding⟩
      (askingExecutor, Host.start 0)).1 = .error (.unfilled "payload" ["parameters.input"]) := by
  obtain ⟨_, _, hall⟩ := predict_payloads (standard asking) rfl (fun _ _ _ => rfl) asking_asks
    asking_valid
  exact ⟨(hall ["a\"b", "\n"] (by decide) .textEmbedding (askingExecutor, Host.start 0)).2.1
      (by decide +kernel) 0 (by decide),
    ((hall ["a", spellingDoc] (by decide) .textEmbedding (askingExecutor, Host.start 0)).2.2 _ _
      (by decide +kernel)).2⟩

/-- A document that looks like a template is not sent. -/
theorem spelling_unsent : ¬∀ (doc : Json) (c : Connector) (settings : HttpSettings) (e : Executor)
    (h h' : Host) (before after : Text) (v : Json) (docs : List Text) (function : FunctionName),
    Connector.ofJson doc = .ok c → Executor.ofConnector c settings none h = (.ok e, h') →
      c.Asks before after → Json.parse (before ++ (Json.sample ++ after)) = .ok v → docs ≠ [] →
        ((standard c).watched.predict ⟨.docs docs, function⟩ ([], e, h')).2.1 ≠ [] := by
  intro hall
  obtain ⟨hloaded, hcreated⟩ := asking_created
  have hcall : (standard asking).callFor [spellingDoc] =
      .error (.unfilled "payload" ["parameters.input"]) := by
    decide +kernel
  obtain ⟨rounds, result, st', hwatched, _, hcourse⟩ := predict_course (s := standard asking)
    (HandsDefault.handsOwn fun _ _ _ => rfl) ⟨.docs [spellingDoc], .textEmbedding⟩
    (askingExecutor, Host.start 0)
  refine hall askingDocument asking Executor.trialSettings askingExecutor (Host.start 0) (Host.start 0)
    askingBefore askingAfter _ [spellingDoc] .textEmbedding hloaded hcreated asking_asks asking_valid
    (List.cons_ne_nil _ _) ?_
  rw [hwatched]
  cases hcourse with
  | docs _ hrounds => exact (hrounds.unrendered (List.cons_ne_nil _ _) hcall).1

end Service

end RemoteModel
