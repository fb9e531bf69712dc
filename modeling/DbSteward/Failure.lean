import DbSteward.Text.Parts

/-!
# Failures

Why a pass cannot go on.  An `Obstacle` stays until the desired document changes;
the other failures may be gone on a later pass.
-/

namespace DbSteward

structure ApiError where
  code : String
  message : String
  deriving DecidableEq, Repr

namespace ApiError

def text (e : ApiError) : String :=
  e.code ++ ": " ++ e.message

def mentions (e : ApiError) (needle : String) : Bool :=
  Text.mentions e.code needle || Text.mentions e.message needle

end ApiError

inductive Obstacle where
  | unknownParameter (name : String)
  | unmodifiableParameter (name : String)
  | terminalStatus (noun status : String)
  | invalidSpec (field message : String)
  deriving DecidableEq, Repr

def Obstacle.message : Obstacle → String
  | .unknownParameter name => "unknown parameter: " ++ name
  | .unmodifiableParameter name => "parameter is not modifiable: " ++ name
  | .terminalStatus noun status => noun ++ " is in '" ++ status ++ "' status"
  | .invalidSpec field message =>
      "invalid desired state for '" ++ field ++ "': " ++ message

inductive Failure where
  | obstacle (o : Obstacle)
  | api (e : ApiError)
  | secret (message : String)
  | cancelled
  | missingObservation (message : String)
  deriving DecidableEq, Repr

namespace Failure

def message : Failure → String
  | .obstacle o => o.message
  | .api e => "API error: " ++ e.text
  | .secret message => "Secret error: " ++ message
  | .cancelled => "reconciliation cancelled"
  | .missingObservation message => message

def isObstacle : Failure → Bool
  | .obstacle _ => true
  | _ => false

def invalidSpec (field message : String) : Failure :=
  .obstacle (.invalidSpec field message)

end Failure
end DbSteward
