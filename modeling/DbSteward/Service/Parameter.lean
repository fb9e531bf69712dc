import DbSteward.Change.Overrides
import DbSteward.Scope

/-!
# Parameters of the database service

How the service describes the parameters of an engine, what matters of a description,
and the entries of the calls that write or reset parameters.
-/

namespace DbSteward

structure ParameterDescription where
  name : String
  value : Option String
  isModifiable : Bool
  applyType : Option String
  source : Option String
  deriving DecidableEq, Repr

inductive Timing where
  | immediate
  | pendingReboot
  deriving DecidableEq, Repr

def Timing.name : Timing → String
  | .immediate => "immediate"
  | .pendingReboot => "pending-reboot"

structure Traits where
  isModifiable : Bool
  isDynamic : Bool
  deriving DecidableEq, Repr

namespace Traits

/-- The type of application that calls for a reboot. -/
def staticType : String := "static"

def ofDescription (d : ParameterDescription) : Traits where
  isModifiable := d.isModifiable
  isDynamic := d.applyType != some staticType

def timing (traits : Traits) : Timing :=
  if traits.isDynamic then .immediate else .pendingReboot

/-- The traits of all parameters that are described.  Of several descriptions of one
parameter the last one counts. -/
def ofListing (descriptions : List ParameterDescription) : Table Traits :=
  Table.ofList (descriptions.map fun d => (d.name, ofDescription d))

end Traits

def Overrides.ofListing (descriptions : List ParameterDescription) : Overrides :=
  Table.ofList (descriptions.map fun d => (d.name, d.value))

structure ParameterEntry where
  name : String
  value : Option String
  timing : Timing
  deriving DecidableEq, Repr

inductive Listing where
  /-- What the engine sets by itself for the groups of a family. -/
  | defaults (scope : Scope) (family : String)
  | overrides (scope : Scope) (group : String)
  deriving DecidableEq, Repr

structure Page where
  entries : List ParameterDescription
  next : Option String
  deriving DecidableEq, Repr

end DbSteward
