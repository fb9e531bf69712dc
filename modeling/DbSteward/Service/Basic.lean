import DbSteward.Service.Memory

/-!
# Database services

What a pass talks to: a service in memory, or none at all, in which case every call
is refused.
-/

namespace DbSteward

inductive Service where
  | memory (memory : Memory)
  | unreachable

namespace Service

/-- The name by which a call is refused.  Calls about the overrides of a group go by
the names for instances. -/
def refusedOperation : Call → String
  | .list (.overrides _ _) _ => Scope.dbInstance.overridesOperation
  | .resetOverrides _ _ _ => Scope.dbInstance.resetOperation
  | .modifyOverrides _ _ _ => Scope.dbInstance.modifyOperation
  | c => c.operation

def refusal (c : Call) : ApiError :=
  ⟨"OfflineMode", refusedOperation c ++ " is not available without an API client"⟩

def perform : Service → (c : Call) → Except ApiError c.Answer × Service
  | .memory m, c =>
      match m.perform c with
      | (answer, after) => (answer, .memory after)
  | .unreachable, c => (.error (refusal c), .unreachable)

def cancelsOn : Service → Call → Bool
  | .memory m, c => m.cancelsOn c
  | .unreachable, _ => false

def calls : Service → List Call
  | .memory m => m.calls
  | .unreachable => []

def listingSize : Service → Listing → Nat
  | .memory m, listing => (m.listings listing).length
  | .unreachable, _ => 0

/-- Changes a service in memory, and leaves one that cannot be reached as it is. -/
def mapMemory (revise : Memory → Memory) : Service → Service
  | .memory m => .memory (revise m)
  | .unreachable => .unreachable

end Service
end DbSteward
