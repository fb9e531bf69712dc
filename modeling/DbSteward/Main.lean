import DbSteward.Planner

/-!
# The command line

Reads the files that the planner asks for and prints its plan, or what is wrong.
-/

namespace DbSteward
namespace Planner

/-- The content of a file, if there is such a file and it holds text. -/
def readFile (path : String) : IO (Option String) := do
  try
    let content ← IO.FS.readFile path
    pure (some content)
  catch _ => pure none

def processEnvironment : IO Settings.Environment := do
  let backoff ← IO.getEnv Settings.backoffVariable
  let batchSize ← IO.getEnv Settings.batchSizeVariable
  let createdDelay ← IO.getEnv Settings.createdDelayVariable
  let retention ← IO.getEnv Settings.replicationRetentionVariable
  pure fun name =>
    if name == Settings.backoffVariable then backoff
    else if name == Settings.batchSizeVariable then batchSize
    else if name == Settings.createdDelayVariable then createdDelay
    else if name == Settings.replicationRetentionVariable then retention
    else none

end Planner
end DbSteward

def main (args : List String) : IO UInt32 := do
  let environment ← DbSteward.Planner.processEnvironment
  let outcome ← (DbSteward.Planner.run environment DbSteward.Planner.readFile args).run
  match outcome with
  | .ok text => do
      IO.print text
      pure 0
  | .error refusal => do
      IO.eprintln ("Error: " ++ refusal.message)
      pure 1
