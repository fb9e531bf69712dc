import DbSteward.Document.Annotation
import DbSteward.Document.Condition
import DbSteward.Document.Kind

/-!
# Resource documents

A document of a resource has metadata, a spec and a status.  The desired document is
written by the operator; the observed one was read from the live resource.
-/

namespace DbSteward

structure Metadata where
  name : String
  space : String
  annotations : Annotations
  deriving DecidableEq

def Metadata.blank : Metadata :=
  ⟨"", "", Table.empty⟩

structure Status (kind : Kind) where
  arn : Option String
  /-- The status text that the database service reports. -/
  live : Option String
  conditions : List Condition
  detail : kind.Detail

structure Document (kind : Kind) where
  metadata : Metadata
  spec : kind.Spec
  status : Status kind

namespace Document

variable {kind : Kind}

def withStatusOf (doc other : Document kind) : Document kind :=
  { doc with status := other.status }

def mapConditions (revise : List Condition → List Condition) (doc : Document kind) :
    Document kind :=
  { doc with status := { doc.status with conditions := revise doc.status.conditions } }

end Document
end DbSteward
