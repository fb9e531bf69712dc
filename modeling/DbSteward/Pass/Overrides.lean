import DbSteward.Pass.Traits

/-!
# Settling parameter overrides

Overrides that are no longer desired are reset, then new and changed ones are written,
both in batches.  Every parameter is looked up before the first call that changes
anything, so one that is unknown or cannot be modified stops the pass before it.
-/

namespace DbSteward

structure ParameterGroup where
  scope : Scope
  name : String
  family : String
  deriving DecidableEq, Repr

namespace Pass

def entryOf (traits : Traits) (name : String) (value : Option String) :
    Except Failure ParameterEntry :=
  if traits.isModifiable then .ok ⟨name, value, traits.timing⟩
  else .error (.obstacle (.unmodifiableParameter name))

def entriesOf (group : ParameterGroup) :
    List (String × Option String) → Pass (List ParameterEntry)
  | [] => pure []
  | (name, value) :: rest => do
      let traits ← traitsFor group.scope group.family name
      let entry ← liftExcept (entryOf traits name value)
      let others ← entriesOf group rest
      pure (entry :: others)

def resetBatches (group : ParameterGroup) : List (List ParameterEntry) → Pass Unit
  | [] => pure ()
  | batch :: rest => do
      call (.resetOverrides group.scope group.name batch) .update group.scope.resetOperation
      resetBatches group rest

def modifyBatches (group : ParameterGroup) : List (List ParameterEntry) → Pass Unit
  | [] => pure ()
  | batch :: rest => do
      call (.modifyOverrides group.scope group.name batch) .update group.scope.modifyOperation
      modifyBatches group rest

def applyOverrides (context : Context) (group : ParameterGroup) (edit : Overrides.Edit) :
    Pass Unit := do
  let resets ← entriesOf group (edit.resets.entries.map fun entry => (entry.1, none))
  let writes ← entriesOf group edit.writes.entries
  resetBatches group (batches context.settings.batchSize resets)
  modifyBatches group (batches context.settings.batchSize writes)

def settleOverrides (context : Context) (group : ParameterGroup)
    (desired observed : Overrides) : Pass Unit :=
  if (Overrides.edit desired observed).isEmpty then pure ()
  else applyOverrides context group (Overrides.edit desired observed)

end Pass
end DbSteward
