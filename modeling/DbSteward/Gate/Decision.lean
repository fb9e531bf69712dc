import DbSteward.Gate.Phase
import DbSteward.Failure
import DbSteward.Json.Basic

/-!
# Decisions

What the outer loop is to do next, and the decision that the phase of a resource
calls for.
-/

namespace DbSteward

structure Duration where
  millis : Nat
  deriving DecidableEq, Repr

namespace Duration

def ofSeconds (seconds : Nat) : Duration :=
  ⟨1000 * seconds⟩

def seconds (d : Duration) : Nat :=
  d.millis / 1000

def millisOfSecond (d : Duration) : Nat :=
  d.millis % 1000

def wordMillis (d : Duration) : Nat :=
  d.millis % UInt64.size

end Duration

inductive Decision where
  | proceed
  | failTerminal (reason : String)
  | retryAfter (after : Duration) (reason : String)
  deriving DecidableEq, Repr

namespace Decision

def isProceed : Decision → Bool
  | .proceed => true
  | _ => false

def isTerminal : Decision → Bool
  | .failTerminal _ => true
  | _ => false

def reason : Decision → Option String
  | .proceed => none
  | .failTerminal reason => some reason
  | .retryAfter _ reason => some reason

def toJson : Decision → Json
  | .proceed => .object [("decision", .text "proceed")]
  | .failTerminal reason =>
      .object [("decision", .text "fail_terminal"), ("reason", .text reason)]
  | .retryAfter after reason =>
      .object [("decision", .text "retry_after"), ("after_ms", .integer after.wordMillis),
        ("reason", .text reason)]

def deletingReason (noun status : String) : String :=
  noun ++ " in '" ++ status ++ "' state, cannot be modified or deleted."

def busyReason (noun status : String) : String :=
  noun ++ " in '" ++ status ++ "' state, cannot be modified until '"
    ++ Vocabulary.availableStatus ++ "'."

def unobservedReason (noun : String) : String :=
  noun ++ " status not yet observed, cannot be modified until '"
    ++ Vocabulary.availableStatus ++ "'."

/-- The decision for a resource that is called `noun` and reports `status`.  The
backoff is fixed. -/
def ofPhase (backoff : Duration) (phase : Phase) (noun : String) (status : Option String) :
    Decision :=
  let status := status.getD ""
  match phase with
  | .available => .proceed
  | .terminal => .failTerminal (Obstacle.terminalStatus noun status).message
  | .deleting => .retryAfter backoff (deletingReason noun status)
  | .creating => .retryAfter backoff (busyReason noun status)
  | .transient => .retryAfter backoff (busyReason noun status)
  | .unknown => .retryAfter backoff (unobservedReason noun)

def defaultBackoff : Duration :=
  .ofSeconds 30

end Decision
end DbSteward
