import Mathlib.Data.List.Basic
import Mathlib.Order.Bounds.Defs
import RemoteModel.Proofs.Resilience.Runs

/-!
Repeated calls of a function whose outcomes are known. The calls end with the first outcome that is not
worth another attempt, with the last attempt there may be, or where the warning before the next attempt
cannot be logged; between two calls there is one warning and one wait.
-/

namespace RemoteModel

namespace Journal

end Journal

namespace Retry

variable {α : Type}

/-- A function whose calls, counted from one, have given outcomes. -/
def scripted (outcomes : Nat → Except Failure α) (s : Nat × Journal) :
    Except Failure α × Nat × Journal :=
  (outcomes (s.1 + 1), s.1 + 1, s.2)

/-- What a classifier logs when it is asked about an outcome. -/
def asked (c : Classifier) : Except Failure α → List LogRecord
  | .ok _ => []
  | .error f => c.notes f

def warned (p : RetryPolicy) (c : Classifier) (voice : Voice) (number : Nat) :
    Except Failure α → List LogRecord
  | .ok _ => []
  | .error f => [warning voice.logger voice.message (.int number) (p.wait number) f (c.details f)]

/-- An outcome after which there is another attempt, if there may be one. -/
def Followed (c : Classifier) (outcome : Except Failure α) : Prop :=
  ∃ f, outcome = .error f ∧ c.isRetriable f = true ∧ LogRecord.taken? (c.details f) = none

/-- How attempts end with an outcome, and what is logged then. -/
inductive Ends (c : Classifier) (voice : Voice) (outcome : Except Failure α) (isLast : Prop) :
    Except Defeat α → List LogRecord → Prop
  | value {v : α} : outcome = .ok v → Ends c voice outcome isLast (.ok v) []
  | final {f : Failure} : outcome = .error f → c.isRetriable f = false →
      Ends c voice outcome isLast (.error (.final f)) []
  | exhausted {f : Failure} : outcome = .error f → c.isRetriable f = true → isLast →
      Ends c voice outcome isLast (.error (.exhausted f)) (voice.last f)
  | unlogged {f : Failure} {name : Text} : outcome = .error f → c.isRetriable f = true → ¬isLast →
      LogRecord.taken? (c.details f) = some name →
      Ends c voice outcome isLast (.error (.final (.attributeTaken name))) []

theorem Ends.stops {c : Classifier} {voice : Voice} {outcome : Except Failure α} {isLast : Prop}
    {result : Except Defeat α} {ending : List LogRecord}
    (h : Ends c voice outcome isLast result ending) : ¬Followed c outcome ∨ isLast := by
  cases h with
  | value hvalue =>
      refine .inl fun ⟨f, hf, _⟩ => ?_
      cases hvalue.symm.trans hf
  | final hfails hfinal =>
      refine .inl fun ⟨f, hf, hretriable, _⟩ => ?_
      cases hfails.symm.trans hf
      cases hfinal.symm.trans hretriable
  | exhausted _ _ hlast => exact .inr hlast
  | unlogged hfails _ _ htaken =>
      refine .inl fun ⟨f, hf, _, hfree⟩ => ?_
      cases hfails.symm.trans hf
      cases htaken.symm.trans hfree

def callVoice (p : RetryPolicy) : Voice :=
  ⟨defaultLogger, "Retry attempt failed, retrying", fun f =>
    [exhausted defaultLogger (.int p.attempts) f]⟩

/-- The attempts after some that were made, of which the one number `limit` may be the last. -/
structure Course (p : RetryPolicy) (c : Classifier) (voice : Voice)
    (outcomes : Nat → Except Failure α) (made limit : Nat) (j : Journal) (k : Nat)
    (result : Except Defeat α) (ending : List LogRecord) (j' : Journal) : Prop where
  least : IsLeast {i | made < i ∧ (¬Followed c (outcomes i) ∨ i = limit)} k
  ends : Ends c voice (outcomes k) (k = limit) result ending
  sleeps : j'.sleeps = j.sleeps ++ (List.range' (made + 1) (k - (made + 1))).map p.wait
  records : j'.records = j.records ++ (List.range' (made + 1) (k - (made + 1))).flatMap (fun i =>
    asked c (outcomes i) ++ warned p c voice i (outcomes i)) ++ asked c (outcomes k) ++ ending

variable {p : RetryPolicy} {c : Classifier} {voice : Voice} {outcomes : Nat → Except Failure α}
  {made limit k : Nat} {result : Except Defeat α} {ending : List LogRecord} {j j' : Journal}

/-- The next attempt is the last one. -/
theorem Course.last (hends : Ends c voice (outcomes (made + 1)) (made + 1 = limit) result ending) :
    Course p c voice outcomes made limit j (made + 1) result ending
      (j.add (asked c (outcomes (made + 1)) ++ ending)) where
  least := ⟨⟨Nat.lt_succ_self made, hends.stops⟩, fun _ hi => hi.1⟩
  ends := hends
  sleeps := by simp [Journal.add]
  records := by simp [Journal.add]

/-- The next attempt is followed by others. -/
theorem Course.again {f : Failure} (hfails : outcomes (made + 1) = .error f)
    (hretriable : c.isRetriable f = true) (hfree : LogRecord.taken? (c.details f) = none)
    (hlimit : made + 1 ≠ limit)
    (hrest : Course p c voice outcomes (made + 1) limit
      ((j.add (c.notes f ++ warned p c voice (made + 1) (outcomes (made + 1)))).sleep
        (p.wait (made + 1))) k result ending j') :
    Course p c voice outcomes made limit j k result ending j' := by
  obtain ⟨⟨hmore, hends⟩, hleast⟩ := hrest.least
  have hrange : List.range' (made + 1) (k - (made + 1)) =
      (made + 1) :: List.range' (made + 1 + 1) (k - (made + 1 + 1)) := by
    rw [← List.range'_succ]
    congr 1
    omega
  refine ⟨⟨⟨Nat.lt_of_succ_lt hmore, hends⟩, fun i ⟨hi, hstops⟩ => ?_⟩, hrest.ends, ?_, ?_⟩
  · rcases Nat.lt_or_eq_of_le hi with hlater | rfl
    · exact hleast ⟨hlater, hstops⟩
    · rcases hstops with hnot | hsame
      · exact absurd ⟨f, hfails, hretriable, hfree⟩ hnot
      · exact absurd hsame hlimit
  · rw [hrest.sleeps, hrange]
    simp [Journal.sleep, Journal.advance, Journal.add]
  · rw [hrest.records, hrange]
    simp [Journal.sleep, Journal.advance, Journal.add, asked, hfails]

theorem call_eq (p : RetryPolicy) (c : Option Classifier) {σ : Type} [HasJournal σ]
    (body : σ → Except Failure α × σ) (s : σ) : call p c body s =
      ((run p (.orDefault c) (callVoice p) body s).1.mapError Defeat.failure,
        (run p (.orDefault c) (callVoice p) body s).2) := by
  unfold call callVoice
  dsimp only
  cases run p (.orDefault c) _ body s with
  | mk result s' => cases result <;> rfl

end Retry

end RemoteModel
