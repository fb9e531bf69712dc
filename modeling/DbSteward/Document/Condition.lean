import DbSteward.Json.Members
import DbSteward.Moment.Reader
import DbSteward.Moment.Printer

/-!
# Conditions

What the status of a resource tells its operator: whether the live state matches
the desired one, and whether the steward has given up on it.  A condition
remembers when it last changed between true and false.
-/

namespace DbSteward

inductive ConditionKind where
  | synced
  | terminal
  deriving DecidableEq, Repr

structure Condition where
  kind : ConditionKind
  status : Bool
  message : Option String
  reason : Option String
  since : Moment
  deriving DecidableEq, Repr

namespace ConditionKind

def name : ConditionKind → String
  | .synced => "Synced"
  | .terminal => "Terminal"

def ofName? (name : String) : Option ConditionKind :=
  if name == "Synced" then some .synced
  else if name == "Terminal" then some .terminal
  else none

/-- A kind is its name, or an object with the name as its only key and nothing as its
value. -/
def read? (inOpen : Bool) : Json → Option ConditionKind
  | .text name => ofName? name
  | .object [(name, value)] => if value.isNothing inOpen then ofName? name else none
  | _ => none

end ConditionKind

namespace Condition

def read? (inOpen : Bool) (j : Json) : Option Condition := do
  let find ← j.record? ["type", "status", "message", "reason", "lastTransitionTime"]
  return { kind := ← find.required "type" (ConditionKind.read? inOpen)
           status := ← find.required "status" Json.flag?
           message := ← find.withDefault "message" none (Json.optional Json.text?)
           reason := ← find.withDefault "reason" none (Json.optional Json.text?)
           since := ← find.required "lastTransitionTime" fun value =>
             (Json.text? value).bind Moment.ofText? }

def optionalMember (name : String) : Option String → List (String × Json)
  | none => []
  | some value => [(name, .text value)]

def toJson (c : Condition) : Json :=
  .object <|
    [("type", .text c.kind.name), ("status", .flag c.status)]
      ++ optionalMember "message" c.message ++ optionalMember "reason" c.reason
      ++ [("lastTransitionTime", .text c.since.text)]

/-- The condition with a new status, message and reason.  Its moment moves to `now`
only if the status flips. -/
def revised (c : Condition) (now : Moment) (status : Bool) (message reason : Option String) :
    Condition :=
  { c with
    status := status
    message := message
    reason := reason
    since := if c.status == status then c.since else now }

end Condition

namespace Conditions

/-- Revises the first condition of a kind, or adds one at the end. -/
def put (now : Moment) (kind : ConditionKind) (status : Bool)
    (message reason : Option String) : List Condition → List Condition
  | [] => [⟨kind, status, message, reason, now⟩]
  | c :: rest =>
      if c.kind = kind then c.revised now status message reason :: rest
      else c :: put now kind status message reason rest

def putSynced (now : Moment) (status : Bool) (message : Option String)
    (conditions : List Condition) : List Condition :=
  put now .synced status message none conditions

def putTerminal (now : Moment) (message : String) (conditions : List Condition) :
    List Condition :=
  put now .terminal true (some message) none conditions

/-- Drops a terminal condition once progress is possible again. -/
def clearTerminal (conditions : List Condition) : List Condition :=
  conditions.filter fun c => c.kind != .terminal

def find? (conditions : List Condition) (kind : ConditionKind) : Option Condition :=
  conditions.find? fun c => c.kind == kind

end Conditions
end DbSteward
