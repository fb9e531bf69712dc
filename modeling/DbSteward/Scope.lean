/-!
# Scopes

Parameters and snapshots come in two scopes, that of a cluster and that of an
instance.
-/

namespace DbSteward

inductive Scope where
  | cluster
  | dbInstance
  deriving DecidableEq, Repr

def Scope.name : Scope → String
  | .cluster => "cluster"
  | .dbInstance => "instance"

end DbSteward
