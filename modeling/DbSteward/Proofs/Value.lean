import DbSteward.Document.Schema
import Mathlib.Data.Option.Basic

/-!
# When the contents of a field differ

The comparison of attribute values is computed.  Here is what it decides for every type
of field: scalars differ unless they are equal, lists of texts differ as sets, and the
capacity ranges of serverless clusters differ when one is missing or a bound differs.
-/

namespace DbSteward

/-- Every item of each list is in the other one. -/
def SameItems (left right : List String) : Prop :=
  ∀ item, item ∈ left ↔ item ∈ right

theorem setDisagrees_iff {left right : List String} :
    setDisagrees left right = true ↔ ¬ SameItems left right := by
  simp only [setDisagrees, SameItems, Bool.or_eq_true, List.any_eq_true, Bool.not_eq_true',
    List.contains_eq_mem, decide_eq_false_iff_not]
  constructor
  · rintro (⟨item, hmem, hnot⟩ | ⟨item, hmem, hnot⟩) hsame
    · exact hnot ((hsame item).1 hmem)
    · exact hnot ((hsame item).2 hmem)
  · intro hnot
    by_contra hnone
    rw [not_or, not_exists, not_exists] at hnone
    apply hnot
    intro item
    constructor
    · intro hmem
      by_contra hother
      exact hnone.1 item ⟨hmem, hother⟩
    · intro hmem
      by_contra hother
      exact hnone.2 item ⟨hmem, hother⟩

namespace Scaling

/-- Both bounds are the same numbers, or missing on both sides. -/
def Agree (left right : Scaling) : Prop :=
  Option.Rel (fun a b => Binary64.same a b = true) left.most right.most ∧
    Option.Rel (fun a b => Binary64.same a b = true) left.least right.least

end Scaling

namespace Value

theorem ofText_disagrees (left right : Option String) :
    (ofText left).disagrees (ofText right) = true ↔ left ≠ right := by
  cases left <;> cases right <;> simp [ofText, disagrees, optionDisagrees, Scalar.same]

theorem ofInteger_disagrees (left right : Option Int64) :
    (ofInteger left).disagrees (ofInteger right) = true ↔ left ≠ right := by
  cases left <;> cases right <;> simp [ofInteger, disagrees, optionDisagrees, Scalar.same]

theorem ofFlag_disagrees (left right : Option Bool) :
    (ofFlag left).disagrees (ofFlag right) = true ↔ left ≠ right := by
  cases left <;> cases right <;> simp [ofFlag, disagrees, optionDisagrees, Scalar.same]

theorem ofReal_disagrees_eq_false {left right : Option Binary64} :
    (ofReal left).disagrees (ofReal right) = false ↔
      Option.Rel (fun a b => Binary64.same a b = true) left right := by
  cases left <;> cases right <;> simp [ofReal, disagrees, optionDisagrees, Scalar.same]

theorem scaling_disagrees {left right : Scaling} :
    (object (some left.attributes)).disagrees (object (some right.attributes)) = false ↔
      left.Agree right := by
  have hbounds : (object (some left.attributes)).disagrees (object (some right.attributes)) =
      ((ofReal left.most).disagrees (ofReal right.most) ||
        (ofReal left.least).disagrees (ofReal right.least)) := by
    simp [Scaling.attributes, disagrees, matchedDisagree, surplus, List.lookup_cons]
  rw [hbounds, Bool.or_eq_false_iff, ofReal_disagrees_eq_false, ofReal_disagrees_eq_false]
  rfl

end Value

namespace FieldType

def Differs : (t : FieldType) → t.Content → t.Content → Prop
  | .text, left, right => left ≠ right
  | .integer, left, right => left ≠ right
  | .flag, left, right => left ≠ right
  | .texts, left, right => ¬ SameItems (left.getD []) (right.getD [])
  | .tags, left, right => Tag.settled left right = false
  | .secret, left, right => SecretRef.textOf left ≠ SecretRef.textOf right
  | .scaling, left, right => ¬ Option.Rel Scaling.Agree left right
  | .overrides, left, right => left.getD Table.empty ≠ right.getD Table.empty

theorem disagrees_iff {t : FieldType} {left right : t.Content} :
    (t.value left).disagrees (t.value right) = true ↔ t.Differs left right := by
  cases t with
  | text => exact Value.ofText_disagrees left right
  | integer => exact Value.ofInteger_disagrees left right
  | flag => exact Value.ofFlag_disagrees left right
  | texts => exact setDisagrees_iff
  | tags => simp [value, Value.disagrees, Differs]
  | secret =>
      simp only [value, Differs]
      rw [Value.ofText_disagrees]
      simp
  | scaling =>
      simp only [value, Differs]
      cases left with
      | none => cases right <;> simp [Value.disagrees]
      | some a =>
          cases right with
          | none => simp [Value.disagrees]
          | some b =>
              rw [Option.map_some, Option.map_some, Option.rel_some_some,
                ← Value.scaling_disagrees, Bool.not_eq_false]
  | overrides => simp [value, Value.disagrees, Differs, bne_iff_ne]

end FieldType
end DbSteward
