import DbSteward.Pass.Update

/-!
# Settling a resource

One pass over a resource: plan, and if the plan allows it, update.  What keeps an update
from ever succeeding becomes a decision; other failures are left to the caller, who tries
again.
-/

namespace DbSteward
namespace Pass

variable {kind : Kind}

/-- Turns an obstacle to an update into the decision to give up. -/
def orAbandon (now : Moment) (doc : Document kind) (pass : Pass (Outcome kind)) :
    Pass (Outcome kind) :=
  tryCatch pass fun failure =>
    match failure with
    | .obstacle o => pure (.abandoned now o.message doc)
    | _ => throw failure

def proceed (context : Context) (desired observed : Document kind) (changes : Changes) :
    Pass (Outcome kind) :=
  if changes.isEmpty then
    pure (.converged context.now
      ((desired.withStatusOf observed).mapConditions Conditions.clearTerminal))
  else
    orAbandon context.now
      ((desired.withStatusOf observed).mapConditions Conditions.clearTerminal)
      (update kind context desired (observed.mapConditions Conditions.clearTerminal) changes)

def follow (context : Context) (plan : Plan) (desired observed : Document kind) :
    Pass (Outcome kind) :=
  match plan.decision with
  | .failTerminal reason =>
      pure (.abandoned context.now reason (desired.withStatusOf observed))
  | .retryAfter after reason =>
      pure (.postponed context.now (.retryAfter after reason) (desired.withStatusOf observed))
  | .proceed => proceed context desired observed plan.changes

/-- Takes a live resource towards its desired document. -/
def settle (context : Context) (desired observed : Document kind) : Pass (Outcome kind) :=
  follow context (.of context.settings desired observed) (desired.normal observed) observed

end Pass
end DbSteward
