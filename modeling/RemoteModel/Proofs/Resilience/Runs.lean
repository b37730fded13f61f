import RemoteModel.Proofs.Entries
import RemoteModel.Resilience.Breaker
import RemoteModel.Resilience.Retry

/-!
What runs keep. A condition that a body keeps when it fails, and that logging and waiting cannot break,
holds after every run that fails; what the body reaches when it succeeds is reached by the run.
-/

namespace RemoteModel

def Leads {ε α σ : Type} (fails : σ → Prop) (succeeds : α → σ → Prop) : Except ε α × σ → Prop
  | (.ok v, s) => succeeds v s
  | (.error _, s) => fails s

namespace Leads

variable {ε ε' α σ : Type} {fails fails' : σ → Prop} {succeeds succeeds' : α → σ → Prop}

theorem mono {r : Except ε α × σ} (h : Leads fails succeeds r) (hfails : ∀ s, fails s → fails' s)
    (hsucceeds : ∀ v s, succeeds v s → succeeds' v s) : Leads fails' succeeds' r := by
  obtain ⟨result, s⟩ := r
  cases result with
  | ok v => exact hsucceeds v s h
  | error => exact hfails s h

theorem mapError {r : Except ε α × σ} (h : Leads fails succeeds r) (f : ε → ε') :
    Leads fails succeeds (r.1.mapError f, r.2) := by
  obtain ⟨result, s⟩ := r
  cases result <;> exact h

/-- A condition that is the same for both ends holds of what is left. -/
theorem always_iff {p : σ → Prop} {r : Except ε α × σ} : Leads p (fun _ => p) r ↔ p r.2 := by
  obtain ⟨result, s⟩ := r
  cases result <;> exact Iff.rfl

end Leads

/-- Conditions that do not depend on the journal. -/
structure Unlogged {σ : Type} [HasJournal σ] (p : σ → Prop) : Prop where
  log : ∀ records s, p s → p (HasJournal.log records s)
  sleep : ∀ seconds s, p s → p (HasJournal.sleep seconds s)

variable {σ α : Type} [HasJournal σ]

theorem Breaker.run_leads (starts fails : σ → Prop) (succeeds : α → σ → Prop) (b : Breaker)
    (kind : ErrorClass) (service : Text) (counts : Failure → Bool) (notes : Failure → List LogRecord)
    (body : σ → Except Failure α × σ) (hstarts : Unlogged starts)
    (hfails : Unlogged fails) (hsucceeds : ∀ v, Unlogged (succeeds v))
    (hrefused : ∀ s, starts s → fails s)
    (hbody : ∀ s, starts s → Leads fails succeeds (body s)) {s : σ} (h : starts s) :
    Leads fails succeeds ((b.run kind service counts notes body s).1,
      (b.run kind service counts notes body s).2.2) := by
  unfold Breaker.run
  split
  next => exact hrefused s h
  next b records _ =>
    have hmore := hbody _ (hstarts.log records s h)
    split
    next v s' hrun =>
      rw [hrun] at hmore
      exact (hsucceeds v).log _ _ hmore
    next f s' hrun =>
      rw [hrun] at hmore
      have hnoted := hfails.log (notes f) s' hmore
      dsimp only
      split <;> exact hfails.log _ _ hnoted

/-- Two results that are the same, or two errors between which `D` holds. -/
inductive Matches (D : Failure → Failure → Prop) : Except Failure α → Except Failure α → Prop
  | same (result : Except Failure α) : Matches D result result
  | apart {f f' : Failure} : D f f' → Matches D (.error f) (.error f')

theorem Matches.mono {D D' : Failure → Failure → Prop} {result result' : Except Failure α}
    (h : Matches D result result') (himp : ∀ f f', D f f' → D' f f') : Matches D' result result' := by
  cases h with
  | same => exact .same _
  | apart hf => exact .apart (himp _ _ hf)

/-- Bodies that end alike, or in errors that do not count, leave a breaker alike. -/
theorem Breaker.run_matches {σ' : Type} [HasJournal σ'] (R : σ → σ' → Prop) (D : Failure → Failure → Prop)
    (b : Breaker) (kind : ErrorClass) (service : Text) (counts : Failure → Bool)
    (body : σ → Except Failure α × σ) (body' : σ' → Except Failure α × σ')
    (hnow : ∀ s s', R s s' → (HasJournal.journal s).now = (HasJournal.journal s').now)
    (hlog : ∀ records s s', R s s' → R (HasJournal.log records s) (HasJournal.log records s'))
    (hD : ∀ f f', D f f' → counts f = false ∧ counts f' = false) (s : σ) (s' : σ') (h : R s s')
    (hbody : ∀ b' records, b.enter (HasJournal.journal s).now = some (b', records) →
      Matches D (body (HasJournal.log records s)).1 (body' (HasJournal.log records s')).1 ∧
        R (body (HasJournal.log records s)).2 (body' (HasJournal.log records s')).2) :
    Matches D (b.run kind service counts (fun _ => []) body s).1
        (b.run kind service counts (fun _ => []) body' s').1 ∧
      (b.run kind service counts (fun _ => []) body s).2.1 =
        (b.run kind service counts (fun _ => []) body' s').2.1 ∧
      R (b.run kind service counts (fun _ => []) body s).2.2
        (b.run kind service counts (fun _ => []) body' s').2.2 := by
  unfold Breaker.run
  rw [← hnow s s' h]
  cases henter : b.enter (HasJournal.journal s).now with
  | none => exact ⟨.same _, rfl, h⟩
  | some entered =>
      obtain ⟨b', records⟩ := entered
      obtain ⟨hresult, hstate⟩ := hbody b' records henter
      dsimp only
      cases hrun : body (HasJournal.log records s) with
      | mk result t =>
          cases hrun' : body' (HasJournal.log records s') with
          | mk result' t' =>
              rw [hrun, hrun'] at hresult hstate
              cases hresult with
              | same =>
                  cases result with
                  | ok v => exact ⟨.same _, rfl, hlog _ _ _ hstate⟩
                  | error f =>
                      have hnoted := hlog [] t t' hstate
                      dsimp only
                      rw [← hnow _ _ hnoted]
                      split <;> exact ⟨.same _, rfl, hlog _ _ _ hnoted⟩
              | @apart f f' hf =>
                  obtain ⟨hcounts, hcounts'⟩ := hD f f' hf
                  dsimp only
                  rw [hcounts, hcounts']
                  exact ⟨.apart hf, rfl, hlog _ _ _ (hlog [] t t' hstate)⟩

/-- A warning cannot be logged for the details of the error alone. -/
theorem Retry.taken?_warning (logger message : Text) (attempt : Json) (wait : Rat) (f : Failure)
    (details : Entries Json) :
    LogRecord.taken? (warning logger message attempt wait f details).extra =
      LogRecord.taken? details := by
  unfold warning LogRecord.taken?
  rw [Entries.find?_names_putAll]
  rfl

/-- A classifier whose details leave to a record what the record says of itself. -/
def Classifier.IsClean (c : Classifier) : Prop := ∀ f, LogRecord.taken? (c.details f) = none

theorem Classifier.isClean_objectStorage : objectStorage.IsClean := by
  intro f
  unfold objectStorage
  dsimp only
  split <;> rfl

theorem Classifier.isClean_orDefault {c : Option Classifier} (h : ∀ d ∈ c, d.IsClean) :
    (orDefault c).IsClean := by
  intro f
  cases c with
  | none => rfl
  | some d => exact h d rfl f

theorem Classifier.isClean_invocation : ∀ c ∈ some invocation, c.IsClean := by
  rintro _ ⟨⟩ f
  unfold invocation
  dsimp only
  split
  next => rfl
  next => split <;> rfl

theorem Retry.attemptsFrom_leads (fails : σ → Prop) (succeeds : α → σ → Prop) (p : RetryPolicy)
    (c : Classifier) (voice : Voice)
    (body : σ → Except Failure α × σ) (hfails : Unlogged fails)
    (hbody : ∀ s, fails s → Leads fails succeeds (body s)) (more : Nat) :
    ∀ attempt s, fails s → Leads fails succeeds (attemptsFrom p c voice body attempt more s) := by
  induction more with
  | zero =>
      intro attempt s h
      have hone := hbody s h
      rw [attemptsFrom]
      split
      next v s' hrun =>
        rw [hrun] at hone
        exact hone
      next f s' hrun =>
        rw [hrun] at hone
        have hnoted := hfails.log (c.notes f) s' hone
        dsimp only
        split
        next => exact hnoted
        next => exact hfails.log _ _ hnoted
  | succ more ih =>
      intro attempt s h
      have hone := hbody s h
      rw [attemptsFrom]
      split
      next v s' hrun =>
        rw [hrun] at hone
        exact hone
      next f s' hrun =>
        rw [hrun] at hone
        have hnoted := hfails.log (c.notes f) s' hone
        dsimp only
        split
        next => exact hnoted
        next =>
          split
          next => exact hnoted
          next => exact ih (attempt + 1) _ (hfails.sleep _ _ (hfails.log _ _ hnoted))

theorem Retry.run_leads (fails : σ → Prop) (succeeds : α → σ → Prop) (p : RetryPolicy)
    (c : Classifier) (voice : Voice)
    (body : σ → Except Failure α × σ) (hfails : Unlogged fails)
    (hbody : ∀ s, fails s → Leads fails succeeds (body s)) {s : σ} (h : fails s) :
    Leads fails succeeds (Retry.run p c voice body s) :=
  attemptsFrom_leads fails succeeds p c voice body hfails hbody _ 1 s h

end RemoteModel
