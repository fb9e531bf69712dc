import DbSteward.Document.Codec
import DbSteward.Json.Printer
import DbSteward.Json.Reader
import DbSteward.Plan.Basic

/-!
# The planner

Prints what a pass would decide for a desired and an observed document, without calling
any service.  Files are read through a function, so that all but the reading can be
reasoned about.
-/

namespace DbSteward
namespace Planner

inductive Refusal where
  | usage
  | setting (e : SettingError)
  | unknownKind (name : String)
  | unreadable (path : String)
  | unparsable (path : String)
  deriving DecidableEq, Repr

def kindNames : String :=
  ", ".intercalate (Kind.all.map Kind.name)

def Refusal.message : Refusal → String
  | .usage =>
      "usage: rds-reconcile-plan <kind> <desired.json> <observed.json>\nkinds: " ++ kindNames
  | .setting e => e.message
  | .unknownKind name => "unknown kind '" ++ name ++ "', expected one of: " ++ kindNames
  | .unreadable path => "failed to read " ++ path
  | .unparsable path => "failed to parse " ++ path

structure Request where
  settings : Settings
  kind : Kind
  desired : String
  observed : String

/-- The settings are looked at before the kind. -/
def request (environment : Settings.Environment) : List String → Except Refusal Request
  | [kindName, desired, observed] => do
      let settings ← (Settings.ofEnvironment environment).mapError .setting
      match Kind.ofName? kindName with
      | none => throw (.unknownKind kindName)
      | some kind => pure ⟨settings, kind, desired, observed⟩
  | _ => .error .usage

def document (kind : Kind) (path : String) : Option String → Except Refusal (Document kind)
  | none => .error (.unreadable path)
  | some content =>
      match (Json.ofText? content).bind (Document.read? kind) with
      | none => .error (.unparsable path)
      | some doc => .ok doc

def planText (plan : Plan) : String :=
  plan.toJson.spread ++ "\n"

/-- The text to print for a command line.  `read` gives the content of a file. -/
def run {m : Type → Type} [Monad m] (environment : Settings.Environment)
    (read : String → m (Option String)) (args : List String) :
    ExceptT Refusal m String := do
  let r ← ExceptT.mk (pure (request environment args))
  let desiredContent ← ExceptT.lift (read r.desired)
  let desired ← ExceptT.mk (pure (document r.kind r.desired desiredContent))
  let observedContent ← ExceptT.lift (read r.observed)
  let observed ← ExceptT.mk (pure (document r.kind r.observed observedContent))
  pure (planText (.of r.settings desired observed))

end Planner
end DbSteward
