import RemoteModel.Failure
import RemoteModel.Log.Record

/-!
Circuit breakers. A breaker counts the failures in a row; when they reach the threshold its circuit
opens, and calls fail without running until the timeout has passed. Then one trial call runs: its
success closes the circuit, its failure opens it again.
-/

namespace RemoteModel

inductive Circuit where
  | closed
  | opened (since : Int)
  | halfOpen
  deriving DecidableEq, Repr

namespace Circuit

def name : Circuit → Text
  | .closed => "closed"
  | .opened _ => "open"
  | .halfOpen => "half-open"

/-- What a log calls the state. -/
def label : Circuit → Text
  | .closed => "<pybreaker.CircuitClosedState>"
  | .opened _ => "<pybreaker.CircuitOpenState>"
  | .halfOpen => "<pybreaker.CircuitHalfOpenState>"

end Circuit

structure Breaker where
  name : Text
  threshold : Int
  timeout : Rat
  circuit : Circuit
  failures : Nat
  deriving DecidableEq, Repr

namespace Breaker

def create (name : Text) (threshold : Int) (timeout : Rat) : Breaker :=
  ⟨name, threshold, timeout, .closed, 0⟩

def logger : Text := "mlconnect.foundation.circuit_breaker"

def moved (b : Breaker) (next : Circuit) : Breaker × LogRecord :=
  ({ b with circuit := next },
    ⟨.warning, logger, "Circuit breaker state changed",
      [("circuit_breaker", .str b.name), ("old_state", .str b.circuit.label),
        ("new_state", .str next.label), ("failure_count", .int b.failures)]⟩)

def failureRecord (b : Breaker) (f : Failure) : LogRecord :=
  ⟨.error, logger, "Circuit breaker failure",
    [("circuit_breaker", .str b.name), ("state", .str b.circuit.name),
      ("failure_count", .int b.failures), ("exception_type", .str f.kind.name)]⟩

def successRecord (b : Breaker) : LogRecord :=
  ⟨.debug, logger, "Circuit breaker success",
    [("circuit_breaker", .str b.name), ("state", .str b.circuit.name)]⟩

/-- The breaker in which a call runs now, or none if it may not run. -/
def enter (b : Breaker) (now : Int) : Option (Breaker × List LogRecord) :=
  match b.circuit with
  | .opened since =>
      if now < since + Journal.microseconds b.timeout then none
      else
        let (b, r) := b.moved .halfOpen
        some (b, [r])
  | _ => some (b, [])

/-- After a call that succeeded or whose error does not count. -/
def pass (b : Breaker) : Breaker × List LogRecord :=
  let b := { b with failures := 0 }
  match b.circuit with
  | .halfOpen =>
      let (b, r) := b.moved .closed
      (b, [r, b.successRecord])
  | _ => (b, [b.successRecord])

/-- After a call whose error counts; says whether the circuit opens. -/
def trip (b : Breaker) (now : Int) (f : Failure) : Breaker × List LogRecord × Bool :=
  let b := { b with failures := b.failures + 1 }
  let seen := b.failureRecord f
  if b.circuit = .halfOpen ∨ b.threshold ≤ b.failures then
    let (b, r) := b.moved (.opened now)
    (b, [seen, r], true)
  else (b, [seen], false)

/-- Runs a call under a breaker. `counts` says which errors count and `notes` what is logged when it
is asked; an error of the class `kind` that names the service stands for an open circuit. -/
def run {σ α : Type} [HasJournal σ] (b : Breaker) (kind : ErrorClass) (service : Text)
    (counts : Failure → Bool) (notes : Failure → List LogRecord)
    (body : σ → Except Failure α × σ) (s : σ) : Except Failure α × Breaker × σ :=
  match b.enter (HasJournal.journal s).now with
  | none => (.error (.circuitOpen kind service), b, s)
  | some (b, records) =>
      match body (HasJournal.log records s) with
      | (.ok v, s) =>
          let (b, records) := b.pass
          (.ok v, b, HasJournal.log records s)
      | (.error f, s) =>
          let s := HasJournal.log (notes f) s
          if counts f then
            let (b, records, opens) := b.trip (HasJournal.journal s).now f
            (.error (if opens then .circuitOpen kind service else f), b, HasJournal.log records s)
          else
            let (b, records) := b.pass
            (.error f, b, HasJournal.log records s)

end Breaker

end RemoteModel
