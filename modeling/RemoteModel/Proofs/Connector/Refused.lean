import RemoteModel.Proofs.Auth.Resolution
import RemoteModel.Proofs.Connector.Document
import RemoteModel.Proofs.Json.Stopped

/-!
Texts that no connector is loaded from. Nearly all are refused with an error of configuration. What is
refused otherwise is a document of another shape than the loader takes for granted, and a text with a whole
number that is too long.
-/

namespace RemoteModel

namespace Connector

variable {α β : Type} {f g : Failure}

/-- A computation that fails with something else than an error of configuration. -/
def Escapes (x : Except Failure α) (f : Failure) : Prop :=
  x = .error f ∧ f.isA (.own .invalidConfig) = false

@[simp]
theorem not_escapes_ok (v : α) (f : Failure) : ¬Escapes (.ok v : Except Failure α) f :=
  fun h => nomatch h.1

theorem not_escapes_error (hconfig : g.isA (.own .invalidConfig) = true) :
    ¬Escapes (.error g : Except Failure α) f := by
  rintro ⟨herror, hforeign⟩
  cases herror
  rw [hconfig] at hforeign
  cases hforeign

theorem escapes_error (hforeign : g.isA (.own .invalidConfig) = false) :
    Escapes (.error g : Except Failure α) f ↔ f = g := by
  constructor
  · rintro ⟨herror, -⟩
    cases herror
    rfl
  · rintro rfl
    exact ⟨rfl, hforeign⟩

theorem escapes_bind {x : Except Failure α} {next : α → Except Failure β} :
    Escapes (x >>= next) f ↔ Escapes x f ∨ ∃ u, x = .ok u ∧ Escapes (next u) f := by
  simp only [Escapes, error_of_bind]
  constructor
  · rintro ⟨hx | ⟨u, hu, hnext⟩, hforeign⟩
    · exact .inl ⟨hx, hforeign⟩
    · exact .inr ⟨u, hu, hnext, hforeign⟩
  · rintro (⟨hx, hforeign⟩ | ⟨u, hu, hnext, hforeign⟩)
    · exact ⟨.inl hx, hforeign⟩
    · exact ⟨.inr ⟨u, hu, hnext⟩, hforeign⟩

theorem escapes_unless {b : Bool} (hconfig : g.isA (.own .invalidConfig) = true)
    {next : Unit → Except Failure β} :
    Escapes (if b = true then throw g >>= next else next ()) f ↔ b = false ∧ Escapes (next ()) f := by
  cases b with
  | false => simp
  | true => exact ⟨fun h => absurd h (not_escapes_error hconfig), fun h => nomatch h.1⟩

theorem escapes_mapM {read : α → Except Failure β} {xs : List α} : Escapes (xs.mapM read) f ↔
    ∃ before x after, xs = before ++ x :: after ∧ (∀ y ∈ before, ∃ v, read y = .ok v) ∧
      Escapes (read x) f := by
  induction xs with
  | nil => simp [pure, Except.pure]
  | cons x xs ih =>
      rw [List.mapM_cons, escapes_bind]
      constructor
      · rintro (hx | ⟨v, hv, hrest⟩)
        · exact ⟨[], x, xs, rfl, by simp, hx⟩
        · rcases escapes_bind.mp hrest with hxs | ⟨_, _, hend⟩
          · obtain ⟨before, y, after, rfl, hbefore, hy⟩ := ih.mp hxs
            refine ⟨x :: before, y, after, rfl, fun z hz => ?_, hy⟩
            rcases List.mem_cons.mp hz with rfl | hz
            · exact ⟨v, hv⟩
            · exact hbefore z hz
          · exact absurd hend (not_escapes_ok _ f)
      · rintro ⟨before, y, after, hxs, hbefore, hy⟩
        cases before with
        | nil =>
            cases hxs
            exact .inl hy
        | cons z before =>
            cases hxs
            obtain ⟨v, hv⟩ := hbefore x List.mem_cons_self
            refine .inr ⟨v, hv, escapes_bind.mpr (.inl (ih.mpr ⟨before, y, after, rfl, ?_, hy⟩))⟩
            exact fun w hw => hbefore w (List.mem_cons_of_mem _ hw)

/-! ### The fields of a document -/

theorem ok_bind (v : α) (next : α → Except Failure β) :
    (Except.ok v : Except Failure α) >>= next = next v := rfl

/-- A field of an object; one that is not there is null. -/
def valueAt (fields : Entries Json) (name : Text) : Json := (fields.get? name).getD .null

/-- A value that is neither left out nor an object. -/
def NoTable (v : Json) : Prop := v.isVacant = false ∧ ∀ fields, v ≠ .obj fields

/-- A value that is neither left out nor made of items. -/
def NoList (v : Json) : Prop := v.isVacant = false ∧ v.items? = none

theorem textual_escapes {v : Json} : Escapes v.textual f ↔ NoTable v ∧ f = .noAttribute := by
  unfold Json.textual NoTable
  cases hvacant : v.isVacant with
  | true => simp
  | false =>
      rw [if_neg Bool.false_ne_true]
      cases v with
      | obj fields => simp
      | null | bool | int | float | str | arr =>
          rw [escapes_error rfl]
          simp

theorem itemsOf_escapes {v : Json} : Escapes (itemsOf v) f ↔ NoList v ∧ f = .wrongType := by
  unfold itemsOf NoList
  cases hvacant : v.isVacant with
  | true => simp
  | false =>
      rw [if_neg Bool.false_ne_true]
      cases hitems : v.items? with
      | some items => simp
      | none =>
          rw [escapes_error rfl]
          simp

theorem actionType_escapes (t : Text) : ¬Escapes (ActionType.parse t) f := by
  unfold ActionType.parse
  cases ActionType.ofName? t with
  | some kind => exact not_escapes_ok kind f
  | none => exact not_escapes_error rfl

theorem protocol_escapes (v : Json) : ¬Escapes (Protocol.ofJson v) f := by
  unfold Protocol.ofJson
  split
  next => exact not_escapes_error rfl
  next t =>
    cases Protocol.ofName? t with
    | some p => exact not_escapes_ok p f
    | none => exact not_escapes_error rfl
  next => exact not_escapes_error rfl

theorem reading_escapes {found : AuthField → Option Json} {result : Except Failure AuthDescriptor}
    (hread : AuthDescriptor.Reading found result) : ¬Escapes result f := by
  cases hread with
  | untyped => exact not_escapes_error rfl
  | unknown => exact not_escapes_error rfl
  | incomplete => exact not_escapes_error rfl
  | user => exact not_escapes_ok _ f
  | plain => exact not_escapes_ok _ f

theorem escapes_map {x : Except Failure α} {g : α → β} : Escapes (x.map g) f ↔ Escapes x f := by
  rw [Escapes, Escapes, error_of_map]

/-- Whatever a protocol demands is announced when it is missing. -/
theorem authorize_escapes (protocol : Protocol) (parameters credential : Entries (Option Text)) :
    ¬Escapes (authorize protocol parameters credential) f := by
  have hsigning : ¬Escapes (checkSigning parameters credential) f := by
    unfold checkSigning
    split_ifs
    · exact not_escapes_error rfl
    · exact not_escapes_error rfl
    · exact not_escapes_error rfl
    · exact not_escapes_error rfl
    · exact not_escapes_ok () f
  have hdescriptor (settings : Entries Json) :
      ¬Escapes ((AuthDescriptor.ofSettings (some settings)).map some) f := by
    rw [escapes_map]
    exact reading_escapes (AuthDescriptor.ofSettings_reading settings)
  unfold authorize
  cases protocol with
  | http => exact not_escapes_ok none f
  | awsSigV4 =>
      rw [escapes_map]
      exact hsigning
  | ociSigV1 => exact hdescriptor _
  | ociGenAi => exact hdescriptor _

/-! ### Actions -/

/-- An action whose document the loader cannot read: it is no object, or nothing else is wrong with it and
its headers are none. -/
inductive ActionMisread : Json → Prop
  | noObject {item : Json} : (∀ fields, item ≠ .obj fields) → ActionMisread item
  | headers {fields : Entries Json} {kind : ActionType} : (valueAt fields "action_type").isNull = false →
      (valueAt fields "method").isVacant = false → (valueAt fields "url").isVacant = false →
      ActionType.parse (valueAt fields "action_type").shown = .ok kind →
      NoTable (valueAt fields "headers") → ActionMisread (.obj fields)

theorem field_valueAt (fields : Entries Json) (name : Text) :
    (Json.obj fields).field name = .ok (valueAt fields name) := rfl

theorem field_escapes {doc : Json} (hdoc : ∀ fields, doc ≠ .obj fields) (name : Text) :
    doc.field name = .error .noAttribute := by
  cases doc with
  | obj fields => exact absurd rfl (hdoc fields)
  | null | bool | int | float | str | arr => rfl

theorem action_escapes {item : Json} :
    Escapes (Action.ofJson item) f ↔ ActionMisread item ∧ f = .noAttribute := by
  by_cases hobject : ∀ fields, item ≠ .obj fields
  · have hfails : Action.ofJson item = .error .noAttribute := by
      rw [Action.ofJson, field_escapes hobject]
      rfl
    rw [hfails, escapes_error rfl]
    exact (and_iff_right (.noObject hobject)).symm
  · push Not at hobject
    obtain ⟨fields, rfl⟩ := hobject
    have hread : Escapes (Action.ofJson (.obj fields)) f ↔
        (valueAt fields "action_type").isNull = false ∧ (valueAt fields "method").isVacant = false ∧
          (valueAt fields "url").isVacant = false ∧
          ∃ kind, ActionType.parse (valueAt fields "action_type").shown = .ok kind ∧
            NoTable (valueAt fields "headers") ∧ f = .noAttribute := by
      unfold Action.ofJson
      simp only [field_valueAt, ok_bind]
      rw [escapes_unless rfl, escapes_unless rfl, escapes_unless rfl, escapes_bind]
      simp [escapes_bind, actionType_escapes, textual_escapes, pure, Except.pure]
    rw [hread]
    constructor
    · rintro ⟨htype, hmethod, hurl, kind, hkind, hheaders, rfl⟩
      exact ⟨.headers htype hmethod hurl hkind hheaders, rfl⟩
    · rintro ⟨hmisread, rfl⟩
      cases hmisread with
      | noObject hobject => exact absurd rfl (hobject fields)
      | headers htype hmethod hurl hkind hheaders => exact ⟨htype, hmethod, hurl, _, hkind, hheaders, rfl⟩

/-! ### Documents -/

/-- What the loader has read of a document when it comes to the tables. -/
structure Begun (fields : Entries Json) : Prop where
  named : (valueAt fields "name").isVacant = false
  actions : ∃ items actions, itemsOf (valueAt fields "actions") = .ok items ∧
    items.mapM Action.ofJson = .ok actions
  protocol : ∃ p, Protocol.ofJson (valueAt fields "protocol") = .ok p

/-- Documents of a shape that the loader does not reckon with, and what it fails with. -/
inductive Misread : Json → Failure → Prop
  | noObject {doc : Json} : (∀ fields, doc ≠ .obj fields) → Misread doc .noAttribute
  | actions {fields : Entries Json} : (valueAt fields "name").isVacant = false →
      NoList (valueAt fields "actions") → Misread (.obj fields) .wrongType
  | action {fields : Entries Json} {before after : List Json} {item : Json} :
      (valueAt fields "name").isVacant = false →
      itemsOf (valueAt fields "actions") = .ok (before ++ item :: after) →
      (∀ b ∈ before, ∃ a, Action.ofJson b = .ok a) → ActionMisread item → Misread (.obj fields) .noAttribute
  | parameters {fields : Entries Json} : Begun fields → NoTable (valueAt fields "parameters") →
      Misread (.obj fields) .noAttribute
  | credential {fields : Entries Json} : Begun fields → ¬NoTable (valueAt fields "parameters") →
      NoTable (valueAt fields "credential") → Misread (.obj fields) .noAttribute
  | roles {fields : Entries Json} : Begun fields → ¬NoTable (valueAt fields "parameters") →
      ¬NoTable (valueAt fields "credential") → NoList (valueAt fields "backend_roles") →
      Misread (.obj fields) .wrongType

theorem textual_ok {v : Json} : (∃ es, v.textual = .ok es) ↔ ¬NoTable v := by
  unfold Json.textual NoTable
  cases hvacant : v.isVacant with
  | true => simp
  | false => cases v <;> simp

theorem ofJson_escapes {doc : Json} : Escapes (ofJson doc) f ↔ Misread doc f := by
  by_cases hobject : ∀ fields, doc ≠ .obj fields
  · have hfails : ofJson doc = .error .noAttribute := by
      rw [ofJson, field_escapes hobject]
      rfl
    rw [hfails, escapes_error rfl]
    constructor
    · rintro rfl
      exact .noObject hobject
    · intro hmisread
      cases hmisread with
      | noObject => rfl
      | _ => exact absurd rfl (hobject _)
  · push Not at hobject
    obtain ⟨fields, rfl⟩ := hobject
    have hread : Escapes (ofJson (.obj fields)) f ↔ (valueAt fields "name").isVacant = false ∧
        (NoList (valueAt fields "actions") ∧ f = .wrongType ∨
        ∃ items, itemsOf (valueAt fields "actions") = .ok items ∧ (Escapes (items.mapM Action.ofJson) f ∨
        ∃ actions, items.mapM Action.ofJson = .ok actions ∧
        ∃ p, Protocol.ofJson (valueAt fields "protocol") = .ok p ∧
        (NoTable (valueAt fields "parameters") ∧ f = .noAttribute ∨
        (∃ es, (valueAt fields "parameters").textual = .ok es) ∧
        (NoTable (valueAt fields "credential") ∧ f = .noAttribute ∨
        (∃ es, (valueAt fields "credential").textual = .ok es) ∧
        NoList (valueAt fields "backend_roles") ∧ f = .wrongType)))) := by
      unfold ofJson
      simp only [field_valueAt, ok_bind]
      rw [escapes_unless rfl]
      simp only [escapes_bind, itemsOf_escapes, protocol_escapes, textual_escapes, authorize_escapes,
        false_or, pure, Except.pure, not_escapes_ok]
      simp
    rw [hread]
    constructor
    · rintro ⟨hnamed, ⟨hlist, rfl⟩ | ⟨items, hitems, haction | ⟨actions, hactions, p, hp, htables⟩⟩⟩
      · exact .actions hnamed hlist
      · obtain ⟨before, item, after, rfl, hbefore, hitem⟩ := escapes_mapM.mp haction
        obtain ⟨hmisread, rfl⟩ := action_escapes.mp hitem
        exact .action hnamed hitems hbefore hmisread
      · have hbegun : Begun fields := ⟨hnamed, ⟨items, actions, hitems, hactions⟩, ⟨p, hp⟩⟩
        rcases htables with ⟨hparameters, rfl⟩ | ⟨hparameters, htables⟩
        · exact .parameters hbegun hparameters
        · rcases htables with ⟨hcredential, rfl⟩ | ⟨hcredential, hroles, rfl⟩
          · exact .credential hbegun (textual_ok.mp hparameters) hcredential
          · exact .roles hbegun (textual_ok.mp hparameters) (textual_ok.mp hcredential) hroles
    · intro hmisread
      cases hmisread with
      | noObject hobject => exact absurd rfl (hobject fields)
      | actions hnamed hlist => exact ⟨hnamed, .inl ⟨hlist, rfl⟩⟩
      | action hnamed hitems hbefore hmisread =>
          have hitem := action_escapes.mpr ⟨hmisread, rfl⟩
          exact ⟨hnamed, .inr ⟨_, hitems, .inl (escapes_mapM.mpr ⟨_, _, _, rfl, hbefore, hitem⟩)⟩⟩
      | parameters hbegun hparameters =>
          obtain ⟨hnamed, ⟨items, actions, hitems, hactions⟩, p, hp⟩ := hbegun
          exact ⟨hnamed, .inr ⟨items, hitems, .inr ⟨actions, hactions, p, hp, .inl ⟨hparameters, rfl⟩⟩⟩⟩
      | credential hbegun hparameters hcredential =>
          obtain ⟨hnamed, ⟨items, actions, hitems, hactions⟩, p, hp⟩ := hbegun
          exact ⟨hnamed, .inr ⟨items, hitems, .inr ⟨actions, hactions, p, hp,
            .inr ⟨textual_ok.mpr hparameters, .inl ⟨hcredential, rfl⟩⟩⟩⟩⟩
      | roles hbegun hparameters hcredential hroles =>
          obtain ⟨hnamed, ⟨items, actions, hitems, hactions⟩, p, hp⟩ := hbegun
          exact ⟨hnamed, .inr ⟨items, hitems, .inr ⟨actions, hactions, p, hp,
            .inr ⟨textual_ok.mpr hparameters, .inr ⟨textual_ok.mpr hcredential, hroles, rfl⟩⟩⟩⟩⟩

/-- Every text is loaded or refused with an error of configuration, but for those whose document has a shape
that the loader does not reckon with, and those with a whole number that is too long. -/
theorem parse_escapes_iff (t : Text) (f : Failure) :
    (parse t = .error f ∧ f.isA (.own .invalidConfig) = false) ↔
      (∃ front number digits, t = front ++ number ∧ Json.Awaits front ∧ Json.Overlong digits number ∧
        f = .integerTooLong digits) ∨
      ∃ doc, Json.parse t = .ok doc ∧ Misread doc f := by
  change Escapes (parse t) f ↔ _
  have htooLong : (∃ front number digits, t = front ++ number ∧ Json.Awaits front ∧
      Json.Overlong digits number ∧ f = .integerTooLong digits) ↔
        ∃ digits, Json.parse t = .error (.tooLong digits) ∧ f = .integerTooLong digits := by
    simp only [Json.parse_tooLong_iff]
    constructor
    · rintro ⟨front, number, digits, ht, hfront, hnumber, rfl⟩
      exact ⟨digits, ⟨front, number, ht, hfront, hnumber⟩, rfl⟩
    · rintro ⟨digits, ⟨front, number, ht, hfront, hnumber⟩, rfl⟩
      exact ⟨front, number, digits, ht, hfront, hnumber, rfl⟩
  rw [htooLong, parse]
  cases hparse : Json.parse t with
  | ok doc => simp [ofJson_escapes]
  | error e =>
      cases e with
      | tooLong digits =>
          rw [escapes_error rfl]
          simp [eq_comm]
      | malformed what line column position =>
          have hconfig : ¬Escapes (.error (.documentNotJson (.malformed what line column position)) :
              Except Failure Connector) f := not_escapes_error rfl
          simpa using hconfig

theorem list_document_escapes : ¬∀ t f, parse t = .error f → f.isA (.own .invalidConfig) = true := by
  intro h
  have hlist : parse "[]" = .error .noAttribute := by decide +kernel
  exact absurd (h "[]" .noAttribute hlist) (by decide)

end Connector

end RemoteModel
