import RemoteModel.Number.Places
import RemoteModel.Resilience.Classifier

/-!
Retries with waits that double. An error that is not worth another attempt ends the run at once, and
so does the last attempt. Before each wait there is a warning; a warning that cannot be logged ends the
run, too.
-/

namespace RemoteModel

structure RetryPolicy where
  attempts : Int
  waitMin : Rat
  waitMax : Rat
  multiplier : Rat
  deriving DecidableEq, Repr

namespace RetryPolicy

def standard : RetryPolicy := ⟨3, 1, 10, 1⟩

/-- The wait after an attempt. Attempts are counted from one. -/
def wait (p : RetryPolicy) (attempt : Nat) : Rat :=
  let least : Rat := if p.waitMin < 0 then 0 else p.waitMin
  let grown := p.multiplier * (Nat.pow 2 (attempt - 1) : Nat)
  let bounded := if p.waitMax < grown then p.waitMax else grown
  if bounded < least then least else bounded

end RetryPolicy

namespace Retry

def defaultLogger : Text := "mlconnect.retry"

def warning (logger message : Text) (attempt : Json) (wait : Rat) (f : Failure)
    (details : Entries Json) : LogRecord :=
  let extra : Entries Json :=
    [("attempt", attempt), ("wait_seconds", .ofRat (Binary64.roundRat 2 wait)),
      ("error_type", .str f.kind.name)]
  ⟨.warning, logger, message, extra.putAll details⟩

def exhausted (logger : Text) (attempts : Json) (f : Failure) : LogRecord :=
  ⟨.error, logger, "All retry attempts exhausted",
    [("max_attempts", attempts), ("error", .str f.message), ("error_type", .str f.kind.name)]⟩

/-- How a run of attempts fails: by an error that no attempt follows, or after the last attempt. -/
inductive Defeat where
  | final (f : Failure)
  | exhausted (f : Failure)
  deriving DecidableEq, Repr

def Defeat.failure : Defeat → Failure
  | .final f | .exhausted f => f

/-- What a run of attempts logs about its failures. -/
structure Voice where
  logger : Text
  message : Text
  last : Failure → List LogRecord

variable {σ α : Type} [HasJournal σ]

/-- Attempts from a given one on, with `more` further ones to follow at most. -/
def attemptsFrom (p : RetryPolicy) (c : Classifier) (voice : Voice)
    (body : σ → Except Failure α × σ) (attempt : Nat) : Nat → σ → Except Defeat α × σ
  | more, s =>
      match body s with
      | (.ok v, s) => (.ok v, s)
      | (.error f, s) =>
          let s := HasJournal.log (c.notes f) s
          if !c.isRetriable f then (.error (.final f), s)
          else match more with
            | 0 => (.error (.exhausted f), HasJournal.log (voice.last f) s)
            | more + 1 =>
                let wait := p.wait attempt
                let record := warning voice.logger voice.message (.int attempt) wait f (c.details f)
                match LogRecord.taken? record.extra with
                | some name => (.error (.final (.attributeTaken name)), s)
                | none =>
                    attemptsFrom p c voice body (attempt + 1) more
                      (HasJournal.sleep wait (HasJournal.log [record] s))

def run (p : RetryPolicy) (c : Classifier) (voice : Voice) (body : σ → Except Failure α × σ)
    (s : σ) : Except Defeat α × σ :=
  attemptsFrom p c voice body 1 (p.attempts.toNat - 1) s

def call (p : RetryPolicy) (c : Option Classifier) (body : σ → Except Failure α × σ) (s : σ) :
    Except Failure α × σ :=
  let voice : Voice := ⟨defaultLogger, "Retry attempt failed, retrying", fun f =>
    [exhausted defaultLogger (.int p.attempts) f]⟩
  match run p (.orDefault c) voice body s with
  | (.ok v, s) => (.ok v, s)
  | (.error d, s) => (.error d.failure, s)

end Retry

end RemoteModel
