import DbSteward.Service.Call
import DbSteward.Text.Numeral

/-!
# A database service in memory

A service that keeps the tags of resources and lists of parameters, remembers every
call and can be told to refuse some.  All other calls are answered and change nothing.
-/

namespace DbSteward

/-- The calls of an operation that a rule is about: the one with a number, counted
from one, or all of them. -/
structure Trigger where
  operation : String
  nth : Option Nat
  deriving DecidableEq, Repr

namespace Trigger

/-- About a single call; a number below one counts as one. -/
def once (operation : String) (nth : Nat) : Trigger :=
  ⟨operation, some (max nth 1)⟩

def always (operation : String) : Trigger :=
  ⟨operation, none⟩

def isAbout (trigger : Trigger) (operation : String) (n : Nat) : Bool :=
  trigger.operation == operation &&
    match trigger.nth with
    | none => true
    | some nth => nth == n

end Trigger

structure Memory where
  pageSize : Nat
  calls : List Call
  /-- Calls to refuse, and with which error.  The first rule about a call counts. -/
  refusals : List (Trigger × ApiError)
  cancellations : List Trigger
  listings : Listing → List ParameterDescription
  tags : String → List Tag

namespace Memory

def standardPageSize : Nat := 100

def fresh : Memory where
  pageSize := standardPageSize
  calls := []
  refusals := []
  cancellations := []
  listings := fun _ => []
  tags := fun _ => []

/-- A page size of zero counts as one. -/
def withPageSize (memory : Memory) (size : Nat) : Memory :=
  { memory with pageSize := max size 1 }

def withRefusal (memory : Memory) (trigger : Trigger) (e : ApiError) : Memory :=
  { memory with refusals := memory.refusals ++ [(trigger, e)] }

def withCancellation (memory : Memory) (trigger : Trigger) : Memory :=
  { memory with cancellations := memory.cancellations ++ [trigger] }

def withListing (memory : Memory) (listing : Listing)
    (entries : List ParameterDescription) : Memory :=
  { memory with
    listings := fun other => if other = listing then entries else memory.listings other }

def withTags (memory : Memory) (arn : String) (tags : List Tag) : Memory :=
  { memory with tags := fun other => if other = arn then tags else memory.tags other }

def withoutCalls (memory : Memory) : Memory :=
  { memory with calls := [] }

def withoutCancellations (memory : Memory) : Memory :=
  { memory with cancellations := [] }

def count (memory : Memory) (operation : String) : Nat :=
  memory.calls.countP fun c => c.operation == operation

def refusal? (memory : Memory) (c : Call) : Option ApiError :=
  (memory.refusals.find? fun rule =>
    rule.1.isAbout c.operation (memory.count c.operation + 1)).map (·.2)

def cancelsOn (memory : Memory) (c : Call) : Bool :=
  memory.cancellations.any fun trigger =>
    trigger.isAbout c.operation (memory.count c.operation + 1)

def invalidMarker (marker : String) : ApiError :=
  ⟨"InvalidParameterValue", "invalid marker: " ++ marker⟩

/-- The position that a marker stands for; no marker stands for the start. -/
def position : Option String → Except ApiError Nat
  | none => .ok 0
  | some marker => (Text.unsigned marker.toList).mapError fun _ => invalidMarker marker

/-- Where a page ends.  Positions are words of 64 bits, so one beyond the listing may
come round to its start. -/
def pageEnd (size start length : Nat) : Nat :=
  if start ≤ length then min (start + size) length
  else min ((start + size) % UInt64.size) length

def pageAt (size start : Nat) (entries : List ParameterDescription) : Page where
  entries := (entries.take (pageEnd size start entries.length)).drop start
  next :=
    if pageEnd size start entries.length < entries.length then
      some (String.ofList (Text.decimal (pageEnd size start entries.length)))
    else none

/-- The answer to a call that is not refused, and what the call leaves behind. -/
def answer (memory : Memory) : (c : Call) → Except ApiError c.Answer × Memory
  | .addTags arn tags =>
      (.ok (), memory.withTags arn (Tag.writeAll (memory.tags arn) tags))
  | .removeTags arn keys =>
      (.ok (), memory.withTags arn (Tag.removeAll (memory.tags arn) keys))
  | .listTags arn => (.ok (memory.tags arn), memory)
  | .list listing marker =>
      ((position marker).map fun start =>
        pageAt memory.pageSize start (memory.listings listing), memory)
  | .resetOverrides _ _ _ => (.ok (), memory)
  | .modifyOverrides _ _ _ => (.ok (), memory)
  | .modifyCluster _ => (.ok (), memory)
  | .modifyInstance _ => (.ok (), memory)
  | .modifySubnetGroup _ => (.ok (), memory)
  | .deleteCluster _ => (.ok (), memory)
  | .deleteInstance _ => (.ok (), memory)
  | .startReplication _ _ => (.ok (), memory)
  | .stopReplication _ _ => (.ok (), memory)

def perform (memory : Memory) (c : Call) : Except ApiError c.Answer × Memory :=
  match memory.refusal? c with
  | some e => (.error e, { memory with calls := memory.calls ++ [c] })
  | none => { memory with calls := memory.calls ++ [c] }.answer c

end Memory
end DbSteward
