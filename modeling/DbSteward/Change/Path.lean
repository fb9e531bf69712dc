import DbSteward.Text.Parts

/-!
# Attribute paths

Paths of names separated by points, rooted at `Spec`.
-/

namespace DbSteward
namespace Path

def root : String := "Spec"

def below (path name : String) : String :=
  path ++ "." ++ name

def segments (path : String) : List (List Char) :=
  Text.parts '.' path.toList

/-- A path is at `top` or somewhere below it. -/
def covers (top path : String) : Bool :=
  match Text.after? top.toList path.toList with
  | none => false
  | some [] => true
  | some (c :: _) => c == '.'

end Path
end DbSteward
