import RemoteModel.Proofs.Resilience.Breaker
import RemoteModel.Proofs.Resilience.Runs

/-!
What a run of attempts consists of. Every attempt but the last ended in an error worth another attempt, and
the last one gives the result of the run.
-/

namespace RemoteModel

theorem Breaker.Logged.holds {σ : Type} [HasJournal σ] {p : σ → Prop} (hjournal : Unlogged p)
    {s s' : σ} (h : Breaker.Logged s s') (hs : p s) : p s' := by
  induction h with
  | refl => exact hs
  | log records _ ih => exact hjournal.log records _ ih

namespace Retry

structure Attempt (σ α : Type) where
  result : Except Failure α
  state : σ

variable {σ α : Type} [HasJournal σ]

/-- A body that notes down its attempts in order. -/
def watched (body : σ → Except Failure α × σ) (s : List (Attempt σ α) × σ) :
    Except Failure α × List (Attempt σ α) × σ :=
  match body s.2 with
  | (result, s') => (result, s.1 ++ [⟨result, s'⟩], s')

def attemptOf (body : σ → Except Failure α × σ) (s : σ) : Attempt σ α := ⟨(body s).1, (body s).2⟩

/-- The attempts from a state on, the first with its number and at most `more` after it, and how they
end. -/
inductive Pursued (p : RetryPolicy) (c : Classifier) (body : σ → Except Failure α × σ) :
    Nat → Nat → σ → List (Attempt σ α) → Except Failure α × σ → Prop
  | last {number more : Nat} {s s' : σ} :
      (∀ f, (body s).1 = .error f → c.isRetriable f = true → more = 0) →
      Breaker.Logged (body s).2 s' →
      Pursued p c body number more s [attemptOf body s] ((body s).1, s')
  | again {number more : Nat} {s s' : σ} {f : Failure} {rest : List (Attempt σ α)}
      {ending : Except Failure α × σ} :
      (body s).1 = .error f → c.isRetriable f = true → Breaker.Logged (body s).2 s' →
      Pursued p c body (number + 1) more (HasJournal.sleep (p.wait number) s') rest ending →
      Pursued p c body number (more + 1) s (attemptOf body s :: rest) ending

theorem attemptsFrom_pursued (p : RetryPolicy) {c : Classifier} (hclean : c.IsClean) (voice : Voice)
    (body : σ → Except Failure α × σ) (more : Nat) :
    ∀ number seen s, ∃ attempts result s',
      attemptsFrom p c voice (watched body) number more (seen, s) =
        (result, seen ++ attempts, s') ∧
      attemptsFrom p c voice body number more s = (result, s') ∧
      Pursued p c body number more s attempts (result.mapError Defeat.failure, s') := by
  -- the run that notes its attempts is followed beside the run itself
  induction more with
  | zero =>
      intro number seen s
      have hlast (s' : σ) := @Pursued.last σ α _ p c body number 0 s s' fun _ _ _ => rfl
      rw [attemptsFrom, attemptsFrom, watched]
      unfold attemptOf at hlast
      dsimp only
      cases hbody : body s with
      | mk r s₁ =>
          rw [hbody] at hlast
          cases r with
          | ok v => exact ⟨_, .ok v, s₁, rfl, rfl, hlast _ .refl⟩
          | error f =>
              dsimp only
              cases hretriable : c.isRetriable f with
              | false => exact ⟨_, .error (.final f), _, rfl, rfl, hlast _ (.log _ .refl)⟩
              | true =>
                  exact ⟨_, .error (.exhausted f), _, rfl, rfl, hlast _ (.log _ (.log _ .refl))⟩
  | succ more ih =>
      intro number seen s
      have hlast (s' : σ) := @Pursued.last σ α _ p c body number (more + 1) s s'
      have hagain (s' : σ) := @Pursued.again σ α _ p c body number more s s'
      rw [attemptsFrom, attemptsFrom, watched]
      unfold attemptOf at hlast hagain
      dsimp only
      cases hbody : body s with
      | mk r s₁ =>
          rw [hbody] at hlast hagain
          cases r with
          | ok v =>
              refine ⟨_, .ok v, s₁, rfl, rfl, hlast _ ?_ .refl⟩
              rintro _ ⟨⟩
          | error f =>
              dsimp only
              cases hretriable : c.isRetriable f with
              | false =>
                  refine ⟨_, .error (.final f), _, rfl, rfl, hlast _ ?_ (.log _ .refl)⟩
                  rintro f' ⟨⟩ hretriable'
                  rw [hretriable] at hretriable'
                  cases hretriable'
              | true =>
                  rw [taken?_warning, hclean f]
                  obtain ⟨rest, result, s', hwatched, hrun, hrest⟩ := ih (number + 1)
                    (seen ++ [⟨.error f, s₁⟩]) (HasJournal.sleep (p.wait number)
                      (HasJournal.log [warning voice.logger voice.message (.int number)
                        (p.wait number) f (c.details f)] (HasJournal.log (c.notes f) s₁)))
                  refine ⟨⟨.error f, s₁⟩ :: rest, result, s', ?_, hrun,
                    hagain _ rfl hretriable (.log _ (.log _ .refl)) hrest⟩
                  rw [List.append_assoc] at hwatched
                  exact hwatched

theorem run_pursued (p : RetryPolicy) {c : Classifier} (hclean : c.IsClean) (voice : Voice)
    (body : σ → Except Failure α × σ) (s : σ) : ∃ attempts result s',
      run p c voice (watched body) ([], s) = (result, attempts, s') ∧
      run p c voice body s = (result, s') ∧
      Pursued p c body 1 (p.attempts.toNat - 1) s attempts (result.mapError Defeat.failure, s') :=
  attemptsFrom_pursued p hclean voice body (p.attempts.toNat - 1) 1 [] s

theorem call_pursued (p : RetryPolicy) {c : Option Classifier} (hclean : ∀ d ∈ c, d.IsClean)
    (body : σ → Except Failure α × σ) (s : σ) : ∃ attempts result s',
      call p c (watched body) ([], s) = (result, attempts, s') ∧ call p c body s = (result, s') ∧
      Pursued p (.orDefault c) body 1 (p.attempts.toNat - 1) s attempts (result, s') := by
  unfold call
  obtain ⟨attempts, result, s', hwatched, hrun, hpursued⟩ := run_pursued p
    (Classifier.isClean_orDefault hclean) ⟨defaultLogger, "Retry attempt failed, retrying", fun f =>
      [exhausted defaultLogger (.int p.attempts) f]⟩ body s
  dsimp only
  rw [hwatched, hrun]
  cases result with
  | ok v => exact ⟨attempts, .ok v, s', rfl, rfl, hpursued⟩
  | error d => exact ⟨attempts, .error d.failure, s', rfl, rfl, hpursued⟩

theorem retriable_of_exhausted {p : RetryPolicy} {c : Classifier}
    {voice : Voice} {body : σ → Except Failure α × σ} {f : Failure} (more : Nat) :
    ∀ attempt s s', attemptsFrom p c voice body attempt more s = (.error (.exhausted f), s') →
      c.isRetriable f = true := by
  induction more with
  | zero =>
      intro attempt s s' hrun
      rw [attemptsFrom] at hrun
      split at hrun
      next => cases hrun
      next g _ _ =>
        dsimp only at hrun
        cases hretriable : c.isRetriable g with
        | false =>
            rw [hretriable] at hrun
            cases hrun
        | true =>
            rw [hretriable] at hrun
            cases hrun
            exact hretriable
  | succ more ih =>
      intro attempt s s' hrun
      rw [attemptsFrom] at hrun
      split at hrun
      next => cases hrun
      next g _ _ =>
        dsimp only at hrun
        cases hretriable : c.isRetriable g with
        | false =>
            rw [hretriable] at hrun
            cases hrun
        | true =>
            rw [hretriable, Bool.not_true, if_neg Bool.false_ne_true] at hrun
            split at hrun
            next => cases hrun
            next => exact ih _ _ _ hrun

namespace Pursued

variable {p : RetryPolicy} {c : Classifier} {body : σ → Except Failure α × σ} {number more : Nat}
  {s : σ} {attempts : List (Attempt σ α)} {ending : Except Failure α × σ}

/-- An attempt whose ending is not worth another attempt is the last one and gives the result. -/
theorem settled (h : Pursued p c body number more s attempts ending) {i : Nat} {a : Attempt σ α}
    (hat : attempts[i]? = some a) (hsettled : ∀ f, a.result = .error f → c.isRetriable f = false) :
    i + 1 = attempts.length ∧ ending.1 = a.result := by
  induction h generalizing i with
  | last =>
      cases i with
      | zero =>
          cases hat
          exact ⟨rfl, rfl⟩
      | succ i => cases hat
  | @again number more s s' f rest ending hfails hretriable _ _ ih =>
      cases i with
      | zero =>
          cases hat
          rw [hsettled f hfails] at hretriable
          cases hretriable
      | succ i =>
          obtain ⟨hlast, hresult⟩ := ih hat
          exact ⟨by rw [List.length_cons, hlast], hresult⟩

theorem result (h : Pursued p c body number more s attempts ending) :
    ∃ a ∈ attempts, ending.1 = a.result := by
  induction h with
  | last => exact ⟨_, List.mem_singleton.mpr rfl, rfl⟩
  | again _ _ _ _ ih =>
      obtain ⟨a, ha, hresult⟩ := ih
      exact ⟨a, List.mem_cons_of_mem _ ha, hresult⟩

theorem single (h : Pursued p c body number more s attempts ending)
    (hsettled : ∀ f, (body s).1 = .error f → c.isRetriable f = false) :
    attempts.length = 1 ∧ ending.1 = (body s).1 ∧ Breaker.Logged (body s).2 ending.2 := by
  cases h with
  | last _ hlogged => exact ⟨rfl, rfl, hlogged⟩
  | again hfails hretriable =>
      rw [hsettled _ hfails] at hretriable
      cases hretriable

/-- What an attempt keeps, and neither logging nor waiting breaks, holds before every attempt and at the
end. -/
theorem invariant {holds : σ → Prop} (hjournal : Unlogged holds)
    (hbody : ∀ s, holds s → holds (body s).2)
    (h : Pursued p c body number more s attempts ending) (hs : holds s) :
    holds ending.2 ∧ ∀ a ∈ attempts, ∃ s, holds s ∧ a = attemptOf body s := by
  induction h with
  | @last number more s s' _ hlogged =>
      refine ⟨hlogged.holds hjournal (hbody s hs), fun a ha => ?_⟩
      obtain rfl := List.mem_singleton.mp ha
      exact ⟨s, hs, rfl⟩
  | @again number more s s' f rest ending _ _ hlogged _ ih =>
      obtain ⟨hend, hrest⟩ := ih (hjournal.sleep _ _ (hlogged.holds hjournal (hbody s hs)))
      refine ⟨hend, fun a ha => ?_⟩
      rcases List.mem_cons.mp ha with rfl | ha
      · exact ⟨s, hs, rfl⟩
      · exact hrest a ha

end Pursued

end Retry

end RemoteModel
