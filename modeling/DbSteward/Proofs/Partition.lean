import DbSteward.Proofs.Comparison
import DbSteward.Proofs.Resumption
import DbSteward.Pass.Update

/-!
# What an edit of overrides takes apart

An edit puts every override that is desired or observed into one of three tables: what is written,
what stays and what is reset.  A name is missing, or has no value, or has a text on either side,
and the comparison of two tables of overrides tells these apart in the same way as the edit does.
So a plan reports the overrides of a group exactly when there is something to settle in them.
-/

namespace DbSteward

namespace Overrides

/-- The three tables of an edit have no name in common and have all names that are desired or
observed.  What is written and what stays is what is desired, and what is reset is what is observed
under the other names. -/
structure Edit.Partitions (edit : Edit) (desired observed : Overrides) : Prop where
  covers : ∀ name, (edit.writes.contains name = true ∨ edit.kept.contains name = true ∨
      edit.resets.contains name = true) ↔
    desired.contains name = true ∨ observed.contains name = true
  written_not_kept : ∀ name, edit.writes.contains name = true → edit.kept.contains name = false
  written_not_reset : ∀ name, edit.writes.contains name = true → edit.resets.contains name = false
  kept_not_reset : ∀ name, edit.kept.contains name = true → edit.resets.contains name = false
  desired_iff : ∀ name value, desired.get? name = some value ↔
    edit.writes.get? name = some value ∨ edit.kept.get? name = some value
  reset_iff : ∀ name value, edit.resets.get? name = some value ↔
    observed.get? name = some value ∧ desired.contains name = false

variable {desired observed : Overrides} {name : String} {value : Option String}

theorem written_iff : (edit desired observed).writes.get? name = some value ↔
    desired.get? name = some value ∧ observed.get? name ≠ some value := by
  rw [get?_writes, Option.filter_eq_some_iff, bne_iff_ne]

theorem kept_iff : (edit desired observed).kept.get? name = some value ↔
    desired.get? name = some value ∧ observed.get? name = some value := by
  have hkept : (edit desired observed).kept.get? name =
      (desired.get? name).filter fun value => observed.get? name == some value :=
    Table.get?_filter _ desired name
  rw [hkept, Option.filter_eq_some_iff, beq_iff_eq]

theorem reset_iff : (edit desired observed).resets.get? name = some value ↔
    observed.get? name = some value ∧ desired.contains name = false := by
  rw [get?_resets, Option.filter_eq_some_iff, Bool.not_eq_true']

/-- What is desired is either written or stays. -/
theorem desired_iff : desired.get? name = some value ↔
    (edit desired observed).writes.get? name = some value ∨
      (edit desired observed).kept.get? name = some value := by
  rw [written_iff, kept_iff, ← and_or_left]
  exact (and_iff_left (ne_or_eq _ _)).symm

theorem contains_desired_iff : desired.contains name = true ↔
    (edit desired observed).writes.contains name = true ∨
      (edit desired observed).kept.contains name = true := by
  simp only [Table.contains_iff, ← exists_or, ← desired_iff]

theorem contains_resets_iff : (edit desired observed).resets.contains name = true ↔
    observed.contains name = true ∧ desired.contains name = false := by
  simp only [Table.contains_iff, reset_iff, exists_and_right]

theorem partitions_edit (desired observed : Overrides) :
    (edit desired observed).Partitions desired observed where
  covers := by
    intro name
    rw [← or_assoc, ← contains_desired_iff, contains_resets_iff]
    cases desired.contains name <;> simp
  written_not_kept := by
    intro name hwritten
    obtain ⟨value, hvalue⟩ := Table.contains_iff.1 hwritten
    obtain ⟨hdesired, hother⟩ := written_iff.1 hvalue
    rw [Table.contains_eq_false_iff, Option.eq_none_iff_forall_not_mem]
    intro stays hstays
    obtain ⟨hsame, hobserved⟩ := kept_iff.1 hstays
    rw [hsame] at hdesired
    exact hother (hobserved.trans hdesired)
  written_not_reset := by
    intro name hwritten
    rw [← Bool.not_eq_true, contains_resets_iff, not_and, Bool.not_eq_false]
    intro _
    exact contains_desired_iff.2 (.inl hwritten)
  kept_not_reset := by
    intro name hkept
    rw [← Bool.not_eq_true, contains_resets_iff, not_and, Bool.not_eq_false]
    intro _
    exact contains_desired_iff.2 (.inr hkept)
  desired_iff := fun _ _ => desired_iff
  reset_iff := fun _ _ => reset_iff

theorem changes_self (overrides : Overrides) : (edit overrides overrides).changes = [] := by
  have hdone : (edit overrides (overrides.after (edit overrides overrides).changes)).changes = [] :=
    changes_after (List.append_nil _).symm
  rw [after_changes] at hdone
  exact hdone

/-- There is nothing to change exactly when the comparison finds no difference. -/
theorem isEmpty_edit_iff : (edit desired observed).isEmpty = true ↔
    (Value.map desired).disagrees (.map observed) = false := by
  rw [Value.disagrees, bne_eq_false_iff_eq, isEmpty_iff_changes]
  constructor
  · intro hnone
    exact (eq_of_changes_nil hnone).symm
  · rintro rfl
    exact changes_self desired

end Overrides

namespace Pass

open Overrides (edit)

/-- A pass over the overrides of a group does something unless the edit is empty. -/
theorem settleOverrides_eq_pure_iff (context : Context) (group : ParameterGroup)
    (desired observed : Overrides) :
    settleOverrides context group desired observed = pure () ↔
      (edit desired observed).isEmpty = true := by
  constructor
  · intro hpure
    have hcarries := carries_settleOverrides context group desired observed
    rw [hpure] at hcarries
    obtain ⟨rest, hplan, hdone⟩ := hcarries.split (.initial (.memory .fresh))
    have hnone : (edit desired observed).batches context.settings.batchSize = [] := by
      rw [hplan, hdone () rfl]
      rfl
    rw [Overrides.isEmpty_iff_changes, ← Overrides.Edit.flatten_batches
      context.settings.batchSize, hnone, List.flatten_nil]
  · intro hempty
    rw [settleOverrides, if_pos hempty]

end Pass

namespace Plan

open Overrides (edit)
open Pass (overridesOf)

theorem overrides_reported_iff (settings : Settings) {scope : Scope}
    (desired observed : Document (.parameterGroup scope)) :
    "Spec.ParameterOverrides" ∈ (Plan.of settings desired observed).changes.paths ↔
      (edit (overridesOf desired) (overridesOf observed)).isEmpty = false := by
  have hlabel : parameterGroupSchema.path .overrides = "Spec.ParameterOverrides" := by decide
  have hcompared : ParameterGroupField.overrides ∈ parameterGroupSchema.compared := by decide
  have hpath := Document.path_mem_paths_iff (desired.normal observed) observed
    (f := ParameterGroupField.overrides) FieldType.noConfusion
  have hflagged : (desired.normal observed).Flagged observed ParameterGroupField.overrides ↔
      (Value.map (overridesOf desired)).disagrees (.map (overridesOf observed)) = true :=
    and_iff_right hcompared
  rw [← hlabel, ← Bool.not_eq_true, Overrides.isEmpty_edit_iff, Bool.not_eq_false, ← hflagged]
  exact hpath

/-- An edit of overrides takes the names that are desired or observed apart, its changes make the
observed overrides the desired ones, and it is empty exactly when the comparison sees no
difference.  So the plan for a parameter group reports its overrides exactly when a pass over them
has something to do. -/
theorem overrides_reported_when_unsettled :
    (∀ desired observed : Overrides,
      (edit desired observed).Partitions desired observed ∧
        observed.after (edit desired observed).changes = desired ∧
        ((edit desired observed).isEmpty = true ↔
          (Value.map desired).disagrees (.map observed) = false)) ∧
      ∀ (context : Context) (scope : Scope) (group : ParameterGroup)
        (desired observed : Document (.parameterGroup scope)),
        "Spec.ParameterOverrides" ∈ (Plan.of context.settings desired observed).changes.paths ↔
          Pass.settleOverrides context group (overridesOf desired) (overridesOf observed) ≠
            pure () := by
  refine ⟨fun desired observed => ⟨Overrides.partitions_edit desired observed,
    Overrides.after_changes desired observed, Overrides.isEmpty_edit_iff⟩, ?_⟩
  intro context scope group desired observed
  rw [overrides_reported_iff, Ne, Pass.settleOverrides_eq_pure_iff, Bool.not_eq_true]

-- An override without a value and one with an empty text are told apart.
example : (edit (Table.ofList [("mode", none)]) (Table.ofList [("mode", some "")])).isEmpty =
    false := by
  decide +kernel

end Plan
end DbSteward
