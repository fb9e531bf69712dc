/-!
# Phases of a resource

Where a resource is in its life, read off the status text that the database
service reports.
-/

namespace DbSteward

inductive Phase where
  /-- No status has been observed yet. -/
  | unknown
  | creating
  | available
  /-- Busy, and expected to become available by itself. -/
  | transient
  /-- Beyond recovery without an operator. -/
  | terminal
  | deleting
  deriving DecidableEq, Repr

namespace Phase

def name : Phase → String
  | .unknown => "unknown"
  | .creating => "creating"
  | .available => "available"
  | .transient => "transient"
  | .terminal => "terminal"
  | .deleting => "deleting"

/-- Only an available resource may be changed. -/
def isActionable (phase : Phase) : Bool :=
  phase == .available

end Phase

structure Vocabulary where
  /-- What the resource is called in messages. -/
  noun : String
  statuses : List String
  terminal : List String
  deriving DecidableEq, Repr

namespace Vocabulary

def availableStatus : String := "available"

def creatingStatus : String := "creating"

def deletingStatus : String := "deleting"

def knows (vocabulary : Vocabulary) (status : String) : Bool :=
  vocabulary.statuses.contains status

/-- The phase of a status.  A terminal status is terminal whatever else it is
called, and a status that says nothing else is transient. -/
def phase (vocabulary : Vocabulary) : Option String → Phase
  | none => .unknown
  | some status =>
      if vocabulary.terminal.contains status then .terminal
      else if status == deletingStatus then .deleting
      else if status == creatingStatus then .creating
      else if status == availableStatus then .available
      else .transient

end Vocabulary
end DbSteward
