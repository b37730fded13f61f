import RemoteModel.Proofs.Inference.Errors
import RemoteModel.Proofs.Json.Stopped

/-!
What becomes of the body of an answer. Every body is kept in one tensor, as the document that it is or as
text, but for a body in which reading comes to a whole number with too many digits.
-/

namespace RemoteModel

namespace Inference

/-- Reading the body comes to a whole number with too many digits, in a place where a value is due. -/
def Stuck (body : Text) (digits : Nat) : Prop :=
  ∃ front number, body = front ++ number ∧ Json.Awaits front ∧ Json.Overlong digits number

/-- The tensor that a body is kept in: an object by its fields, any other document under the name of the
tensor, and what is no document as text. -/
inductive Kept : Text → Tensor → Prop
  | empty : Kept [] ⟨responseName, some [], none, none⟩
  | fields {body : Text} {fields : List (Text × Json)} : Json.parse body = .ok (.obj fields) →
      Kept body ⟨responseName, some fields, none, none⟩
  | value {body : Text} {v : Json} : Json.parse body = .ok v → (∀ fields, v ≠ .obj fields) →
      Kept body ⟨responseName, some [(responseName, v)], none, none⟩
  | text {body : Text} {e : Json.ReadError} : body ≠ [] → Json.parse body = .error e →
      Kept body ⟨responseName, none, none, some body⟩

/-- A body is kept in one tensor unless reading it gets stuck. -/
inductive Outcome (body : Text) : Except Failure Tensors → Prop
  | kept {t : Tensor} : (∀ digits, ¬Stuck body digits) → Kept body t → Outcome body (.ok ⟨[t], none⟩)
  | stuck {digits : Nat} : Stuck body digits → Outcome body (.error (.integerTooLong digits))

theorem kept_of_parse {body : Text} {d : Json} (hparse : Json.parse body = .ok d) :
    Kept body (tensorOf d) := by
  cases d with
  | obj fields => exact .fields hparse
  | null | bool | int | float | str | arr => exact .value hparse nofun

theorem defaultTensor_of_malformed {body : Text} {what : Json.Fault} {line column position : Nat}
    (hbody : body ≠ []) (hparse : Json.parse body = .error (.malformed what line column position)) :
    defaultTensor body = .ok ⟨responseName, none, none, some body⟩ := by
  unfold defaultTensor
  split
  next => exact absurd rfl hbody
  next => rw [hparse]

theorem not_stuck_of_parse {body : Text} {result : Except Json.ReadError Json}
    (hparse : Json.parse body = result) (hshort : ∀ digits, result ≠ .error (.tooLong digits))
    (digits : Nat) : ¬Stuck body digits := fun hstuck =>
  hshort digits (hparse.symm.trans (Json.parse_tooLong_iff.mpr hstuck))

theorem defaultOutput_outcome (body : Text) (c : Connector) (parameters : Entries Json) :
    Outcome body (defaultOutput body c parameters) := by
  unfold defaultOutput
  by_cases hempty : body = []
  · have hparse : Json.parse [] = .error (.malformed .value 1 1 0) := rfl
    rw [hempty]
    exact .kept (not_stuck_of_parse hparse nofun) .empty
  · cases hparse : Json.parse body with
    | ok d =>
        rw [defaultTensor_of_parse hempty hparse]
        exact .kept (not_stuck_of_parse hparse nofun) (kept_of_parse hparse)
    | error e =>
        cases e with
        | malformed what line column position =>
            rw [defaultTensor_of_malformed hempty hparse]
            exact .kept (not_stuck_of_parse hparse nofun) (.text hempty hparse)
        | tooLong digits =>
            rw [defaultTensor_of_tooLong hparse]
            exact .stuck (Json.parse_tooLong_iff.mp hparse)

/-- A whole number with one digit more than are read. -/
def overlongBody : Text := List.replicate (Numeral.digitLimit + 1) (.scalar '1')

theorem overlongBody_stuck : Stuck overlongBody (Numeral.digitLimit + 1) := by
  have hdigits : ∀ d ∈ overlongBody, d = .scalar '1' := fun d hd => List.eq_of_mem_replicate hd
  have hlong : Json.Overlong (Numeral.digitLimit + 1) ([] ++ (overlongBody ++ [])) :=
    .intro (.inl rfl) (fun d hd => by rw [hdigits d hd]; rfl) (by decide) List.length_replicate
      (Nat.lt_succ_self _) nofun
  rw [List.nil_append, List.append_nil] at hlong
  exact ⟨[], overlongBody, rfl, ⟨1, 1, rfl⟩, hlong⟩

/-- Not every body is kept: a whole number with too many digits is no document, but is not kept as text. -/
theorem overlong_body_lost : ¬∀ (body : Text) (c : Connector) (parameters : Entries Json),
    ∃ t, Kept body t ∧ defaultOutput body c parameters = .ok ⟨[t], none⟩ := by
  intro hall
  obtain ⟨t, -, hkept⟩ := hall overlongBody Executor.trialConnector []
  have hstuck := defaultTensor_of_tooLong (Json.parse_tooLong_iff.mpr overlongBody_stuck)
  unfold defaultOutput at hkept
  rw [hstuck] at hkept
  cases hkept

end Inference

namespace Service

variable {σ : Type}

/-- What a prediction makes of the answer to its call number `k`, given what the body comes to: the tensors
stand in the place of the call, with the status, and only a later call fails; or the prediction ends with
the error. -/
structure Heeds [HasJournal σ] (s : Service σ) (q : Query) (st : σ) (k : Nat) (status : Int)
    (result : Except Failure Tensors) : Prop where
  placed : ∀ t, result = .ok t → ∀ p, (s.predict q st).1 = .ok p →
    p.calls[k]? = some { t with status := some status }
  later : ∀ t, result = .ok t → ∀ f, (s.predict q st).1 = .error f →
    s.GoesOn q (s.watched.predict q ([], st)).2.1 k f
  ended : ∀ f, result = .error f → (s.predict q st).1 = .error f

theorem predict_heeds [HasJournal σ] (s : Service σ) (hdefault : s.HandsDefault) (q : Query) (st : σ)
    {k : Nat} {call : Call} {r : Response} {processed : Option (Text × Except Failure Tensors)}
    (hvisit : (s.watched.predict q ([], st)).2.1[k]? = some ⟨call, .ok r, processed⟩) {body : Text}
    (hheard : r.heard = .ok body) :
    ∃ result, Inference.Outcome body result ∧ processed = some (body, result) ∧
      s.Heeds q st k r.status result := by
  obtain ⟨rounds, result, st', hwatched, hrun, hcourse⟩ :=
    predict_course hdefault.handsOwn q st
  have hat := (hcourse.get?_visits k _).mp (by rw [hwatched] at hvisit; exact hvisit)
  rcases hcourse.ends hdefault hat with ⟨f, hfails, rfl⟩ | ⟨t, hgives, hcalls, hlater⟩
  · cases hfails with
    | refused hrefused => cases hheard.symm.trans hrefused
    | unprocessed parameters st hbody hfails =>
        cases hheard.symm.trans hbody
        rw [hdefault] at hfails
        have houtcome := Inference.defaultOutput_outcome body s.connector parameters
        rw [error_of_map.mp hfails] at houtcome
        refine ⟨.error f, houtcome, rfl, nofun, nofun, fun g hg => ?_⟩
        cases hg
        rw [hrun]
        rfl
  · obtain ⟨_, hhands⟩ := hgives
    cases hhands with
    | @intro _ _ _ _ given parameters st _ hbody houtput hread =>
        cases hheard.symm.trans hbody
        have hgiven := congrArg Prod.fst houtput
        rw [hdefault] at hgiven
        obtain ⟨given', hdefault', rfl⟩ := ok_of_map.mp hgiven
        obtain rfl : given = given' := hread.symm
        have houtcome := Inference.defaultOutput_outcome body s.connector parameters
        rw [hdefault'] at houtcome
        refine ⟨.ok given, houtcome, rfl, fun t ht p hp => ?_, fun t ht f hf => ?_, nofun⟩
        · cases ht
          rw [hrun] at hp
          cases result with
          | error => cases hp
          | ok calls =>
              cases hp
              exact hcalls calls rfl
        · rw [hrun] at hf
          rw [hwatched]
          cases result with
          | ok => cases hf
          | error g =>
              cases hf
              exact hlater f rfl

/-- What becomes of a body: the default output processor keeps it in one tensor unless it gets stuck, and a
prediction that is answered with a success and this body heeds just that. -/
theorem body_outcome (body : Text) :
    (∀ c parameters, Inference.Outcome body (Inference.defaultOutput body c parameters)) ∧
    ∀ (σ : Type) [HasJournal σ] (s : Service σ), (∀ body parameters st,
        (s.output body s.connector parameters st).1 =
          (Inference.defaultOutput body s.connector parameters).map .own) →
      ∀ q st k call r processed,
        (s.watched.predict q ([], st)).2.1[k]? = some ⟨call, .ok r, processed⟩ →
        200 ≤ r.status ∧ r.status < 300 → ∀ bytes, r.Carries bytes →
        Utf8.decodeReplacing bytes = body →
        ∃ result, Inference.Outcome body result ∧ processed = some (body, result) ∧
          s.Heeds q st k r.status result := by
  refine ⟨Inference.defaultOutput_outcome body, ?_⟩
  rintro σ _ s hdefault q st k call r processed hvisit hstatus bytes hcarries rfl
  refine s.predict_heeds hdefault q st hvisit ?_
  rw [hcarries.heard_eq, if_pos]
  unfold Response.isSuccess
  rw [← Bool.decide_and]
  exact decide_eq_true hstatus

theorem sample_body_heeded : ∃ call r processed result,
    sampleVisits[0]? = some ⟨call, .ok r, processed⟩ ∧
      Inference.Outcome sampleDocument.render result ∧
      processed = some (sampleDocument.render, result) ∧
      (standard Executor.trialConnector).Heeds sampleQuery (Executor.trialExecutor, answeringHost) 0
        200 result := by
  obtain ⟨call, r, processed, hvisit, hstatus, hcarries⟩ := sampleVisits_head
  have hbody : Utf8.decodeReplacing sampleBytes = sampleDocument.render := by decide +kernel
  obtain ⟨result, houtcome, hprocessed, hheeds⟩ := (body_outcome sampleDocument.render).2 _
    (standard Executor.trialConnector) (fun _ _ _ => rfl) sampleQuery
    (Executor.trialExecutor, answeringHost) 0 call r processed hvisit (by rw [hstatus]; decide)
    sampleBytes hcarries hbody
  rw [hstatus] at hheeds
  exact ⟨call, r, processed, result, hvisit, houtcome, hprocessed, hheeds⟩

end Service

end RemoteModel
