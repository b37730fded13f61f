import RemoteModel.Proofs.Calls.Foreign
import RemoteModel.Proofs.Calls.Retried
import RemoteModel.Proofs.Inference.Answers

/-!
How predictions fail. A prediction ends with the error of one of its rounds, and the causes of an error
that is none of the library's own can be told from the query, the connector and the answer.
-/

namespace RemoteModel

open Host

namespace Connector

variable {c : Connector} {type : ActionType} {parameters : Entries Json} {f : Failure}

/-- Bodies that no payload can be made of. -/
def NoTemplate (a : Action) : Prop := a.body ≠ .null ∧ ∀ t, a.body ≠ .str t

end Connector

/-- A payload holds a whole number that is too long to be read. -/
structure Unreadable (t : Text) (digits : Nat) : Prop where
  closed : Template.placeholders t = []
  number : Json.parse t = .error (.tooLong digits)

theorem Unreadable.ne_nil {t : Text} {digits : Nat} (h : Unreadable t digits) : t ≠ [] := by
  rintro rfl
  cases h.number

theorem Unreadable.check {t : Text} {digits : Nat} (h : Unreadable t digits) :
    checkPayload (some t) = .error (.integerTooLong digits) := by
  unfold checkPayload
  split
  next heq => cases heq
  next heq => exact absurd (Option.some.inj heq) h.ne_nil
  next heq =>
    cases heq
    rw [h.closed, h.number]

theorem Inference.defaultTensor_of_tooLong {body : Text} {digits : Nat}
    (hparse : Json.parse body = .error (.tooLong digits)) :
    defaultTensor body = .error (.integerTooLong digits) := by
  unfold defaultTensor
  split
  next => cases hparse
  next => rw [hparse]

namespace Service

variable {c : Connector} {q : Query} {e : Executor} {h : Host}

/-- What a round leaves: what its call leaves, but for the journal. -/
theorem invoke_leaves [HostEncoder] (c : Connector) (q : Query) (e : Executor) (h : Host) :
    ((standard c).invoke q (e, h)).2 = (e, h) ∨ ∃ call,
      Breaker.Logged (e.call call h).2 ((standard c).invoke q (e, h)).2 := by
  unfold invoke
  dsimp only
  split
  next => exact .inl rfl
  next parameters call _ =>
    refine .inr ⟨call, ?_⟩
    rw [show (standard c).execute call (e, h) = e.call call h from rfl]
    cases e.call call h with
    | mk result s =>
        cases result with
        | error => exact .refl
        | ok r =>
            have hlogged := (standard c).bodyOf_logged r s
            dsimp only
            cases hbody : (standard c).bodyOf r s with
            | mk text s' =>
                rw [hbody] at hlogged
                cases text with
                | error => exact hlogged
                | ok body =>
                    dsimp only
                    rw [show (standard c).output body (standard c).connector parameters s' =
                      ((Inference.defaultOutput body c parameters).map .own, s') from rfl]
                    cases Inference.defaultOutput body c parameters <;> exact hlogged

/-- The rounds over some documents: the first is over all of them, and while rounds give tensors the
next one leaves one document more behind. -/
inductive Meets [HostEncoder] (c : Connector) :
    List Text → Executor × Host → List Text → Executor × Host → Prop
  | first (doc : Text) (more : List Text) (s : Executor × Host) :
      Meets c (doc :: more) s (doc :: more) s
  | later {doc : Text} {more docs : List Text} {object : Handed (Executor × Host)}
      {s s' s'' : Executor × Host} :
      (standard c).invoke (batch (doc :: more)) s = (.ok object, s') → Meets c more s' docs s'' →
      Meets c (doc :: more) s docs s''

/-- Executors without a decryptor, before hosts whose exchanges are ordinary. -/
structure Plain (s : Executor × Host) : Prop where
  decrypt : s.1.decrypt = none
  ordinary : ∀ x ∈ s.2.exchanges, x.Ordinary

theorem Plain.invoke [HostEncoder] {s : Executor × Host} (hplain : Plain s) (c : Connector) (q : Query) :
    Plain ((standard c).invoke q s).2 := by
  obtain ⟨e, h⟩ := s
  rcases invoke_leaves c q e h with hsame | ⟨call, hlogged⟩
  · rwa [hsame]
  · have hrest := (e.call_serves call hplain.ordinary).exchanges_suffix
    refine ⟨?_, fun x hx => hplain.ordinary x (hrest.subset ?_)⟩
    · rw [hlogged.fst, e.call_decrypt]
      exact hplain.decrypt
    · rwa [← hlogged.still.exchanges]

/-- The ways of a round to end in a foreign error: the template of the body is no text, the payload or the
answer holds a whole number with too many digits, or the call strays. -/
inductive Strays [HostEncoder] (c : Connector) (q : Query) (e : Executor) (h : Host) : Failure → Prop
  | body {a : Action} : c.action .predict = .ok a → Connector.NoTemplate a →
      Strays c q e h .wrongType
  | payload {parameters : Entries Json} {t : Text} {digits : Nat} :
      (standard c).parameters q = .ok parameters → c.payload .predict parameters = .ok (some t) →
      Unreadable t digits → Strays c q e h (.integerTooLong digits)
  | call {call : Call} {f : Failure} : (standard c).callOn q = .ok call → e.Strays call h f →
      Strays c q e h f
  | answer {call : Call} {r : Response} {body : Text} {digits : Nat} :
      (standard c).callOn q = .ok call → (e.call call h).1 = .ok r → r.heard = .ok body →
      Json.parse body = .error (.tooLong digits) → Strays c q e h (.integerTooLong digits)

end Service

end RemoteModel
