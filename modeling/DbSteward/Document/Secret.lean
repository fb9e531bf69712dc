import DbSteward.Json.Members

/-!
# Secret references

References to one key of a named secret, written `namespace/name.key`.
-/

namespace DbSteward

structure SecretRef where
  space : String
  name : String
  key : String
  deriving DecidableEq, Repr

namespace SecretRef

def text (r : SecretRef) : String :=
  r.space ++ "/" ++ r.name ++ "." ++ r.key

def textOf (r : Option SecretRef) : String :=
  (r.map text).getD ""

def read? (j : Json) : Option SecretRef := do
  let find ← j.record? ["namespace", "name", "key"]
  return { space := ← find.required "namespace" Json.text?
           name := ← find.required "name" Json.text?
           key := ← find.required "key" Json.text? }

def toJson (r : SecretRef) : Json :=
  .object [("namespace", .text r.space), ("name", .text r.name), ("key", .text r.key)]

end SecretRef
end DbSteward
