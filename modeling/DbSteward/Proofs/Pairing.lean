import DbSteward.Proofs.Changes

/-!
# Paired attributes

Two lists of attributes are compared by one walk and searched for differences by another one.
Both visit the same pairs of values: every desired attribute with the first observed one of its
name, then every observed attribute whose name is not desired.  The absent value of its kind
stands for what is missing on one side.

Stated over these pairs the two walks have one shape.  They agree on whether anything differs,
and nothing is asked of the lists for that: names may come twice or stand for values of
different kinds.
-/

namespace DbSteward

namespace Value

/-- Both values are objects that are there, so that they are compared field by field. -/
def BothObjects (desired observed : Value) : Prop :=
  ∃ a b, desired = .object (some a) ∧ observed = .object (some b)

theorem not_bothObjects_absent_left (value other : Value) : ¬ BothObjects value.absent other := by
  rintro ⟨a, b, habsent, -⟩
  cases value <;> simp [absent] at habsent

theorem not_bothObjects_absent_right (other value : Value) : ¬ BothObjects other value.absent := by
  rintro ⟨a, b, -, habsent⟩
  cases value <;> simp [absent] at habsent

theorem disagrees_absent (value : Value) : value.disagrees value.absent = value.isPresent := by
  cases value with
  | scalar s => cases s <;> rfl
  | list items => cases items <;> simp [absent, disagrees, isPresent, listDisagrees]
  | set items => cases items <;> simp [absent, disagrees, isPresent, setDisagrees]
  | tags items =>
      cases items <;>
        simp [absent, disagrees, isPresent, Tag.settled, Tag.edit, Tag.Edit.isEmpty, Tag.last?]
  | map entries =>
      rw [absent, disagrees, isPresent, Bool.eq_iff_iff, bne_iff_ne, Bool.not_eq_true',
        ← Bool.not_eq_true, Table.isEmpty_iff]
  | object fields => cases fields <;> rfl

theorem absent_disagrees (value : Value) : value.absent.disagrees value = value.isPresent := by
  cases value with
  | scalar s => cases s <;> rfl
  | list items => cases items <;> simp [absent, disagrees, isPresent, listDisagrees]
  | set items => cases items <;> simp [absent, disagrees, isPresent, setDisagrees]
  | tags items =>
      cases items <;>
        simp [absent, disagrees, isPresent, Tag.settled, Tag.edit, Tag.Edit.isEmpty]
  | map entries =>
      rw [absent, disagrees, isPresent, Bool.eq_iff_iff, bne_iff_ne, Bool.not_eq_true',
        ← Bool.not_eq_true, Table.isEmpty_iff, ne_comm]
  | object fields => cases fields <;> rfl

end Value

/-- A name with the values that are desired and observed under it. -/
structure Pair where
  name : String
  desired : Value
  observed : Value

namespace Pair

def ofDesired (observed : List Attribute) (field : Attribute) : Pair where
  name := field.1
  desired := field.2
  observed := (observed.lookup field.1).getD field.2.absent

def ofObserved (field : Attribute) : Pair where
  name := field.1
  desired := field.2.absent
  observed := field.2

/-- The attributes that are observed and not named among the desired ones. -/
def surplus (desired observed : List Attribute) : List Attribute :=
  observed.filter fun field => !desired.any (·.1 == field.1)

/-- The pairs of two lists, those of the desired attributes first. -/
def all (desired observed : List Attribute) : List Pair :=
  desired.map (ofDesired observed) ++ (surplus desired observed).map ofObserved

def disagrees (pair : Pair) : Bool :=
  pair.desired.disagrees pair.observed

theorem mem_all_iff {desired observed : List Attribute} {pair : Pair} :
    pair ∈ all desired observed ↔
      (∃ field ∈ desired, ofDesired observed field = pair) ∨
        ∃ field ∈ surplus desired observed, ofObserved field = pair := by
  simp only [all, List.mem_append, List.mem_map]

end Pair

/-! ## The comparison -/

namespace Value

theorem matchedDisagree_eq_any (desired observed : List Attribute) :
    matchedDisagree desired observed =
      (desired.map (Pair.ofDesired observed)).any Pair.disagrees := by
  induction desired with
  | nil => rfl
  | cons field rest ih =>
      obtain ⟨name, value⟩ := field
      rw [matchedDisagree, ih, List.map_cons, List.any_cons]
      congr 1
      cases hlookup : observed.lookup name with
      | none =>
          simp only [Pair.disagrees, Pair.ofDesired, hlookup, Option.getD_none, disagrees_absent]
      | some other => simp only [Pair.disagrees, Pair.ofDesired, hlookup, Option.getD_some]

theorem surplus_eq_any (desired observed : List Attribute) :
    surplus desired observed =
      ((Pair.surplus desired observed).map Pair.ofObserved).any Pair.disagrees := by
  rw [surplus, Pair.surplus, List.any_map, List.any_filter]
  simp only [Function.comp_apply, Pair.disagrees, Pair.ofObserved, absent_disagrees]

/-- Lists of attributes disagree when one of their pairs does. -/
theorem fieldsDisagree_eq_any (desired observed : List Attribute) :
    fieldsDisagree desired observed = (Pair.all desired observed).any Pair.disagrees := by
  rw [fieldsDisagree, matchedDisagree_eq_any, surplus_eq_any, Pair.all, List.any_append]

theorem disagrees_objects (desired observed : List Attribute) :
    (object (some desired)).disagrees (object (some observed)) =
      (Pair.all desired observed).any Pair.disagrees := by
  rw [← fieldsDisagree_eq_any, disagrees, fieldsDisagree]

/-- Induction over two values side by side: it suffices to show a property of two objects
from the property of their pairs. -/
theorem paired_induction {motive : Value → Value → Prop}
    (plain : ∀ desired observed, ¬ BothObjects desired observed → motive desired observed)
    (objects : ∀ a b, (∀ pair ∈ Pair.all a b, motive pair.desired pair.observed) →
      motive (.object (some a)) (.object (some b)))
    (desired observed : Value) : motive desired observed := by
  by_cases hboth : BothObjects desired observed
  · obtain ⟨a, b, rfl, rfl⟩ := hboth
    refine objects a b fun pair hpair => ?_
    rcases Pair.mem_all_iff.1 hpair with ⟨field, hfield, rfl⟩ | ⟨field, -, rfl⟩
    · -- The desired value gets smaller, whatever is observed.
      have hsmaller := List.sizeOf_lt_of_mem hfield
      exact paired_induction plain objects field.2 _
    · exact plain _ _ (not_bothObjects_absent_left _ _)
  · exact plain desired observed hboth
termination_by sizeOf desired
decreasing_by
  subst_vars
  obtain ⟨name, value⟩ := field
  simp only [object.sizeOf_spec, Option.some.sizeOf_spec, Prod.mk.sizeOf_spec] at hsmaller ⊢
  omega

end Value

/-! ## The walk over differences -/

namespace Changes

theorem withValue_plain {desired observed : Value} (hplain : ¬ desired.BothObjects observed)
    (path : String) (changes : Changes) :
    withValue path desired observed changes = changes.note path observed desired :=
  (withValue_of_plain desired observed (fun a b h => hplain ⟨a, b, h⟩) path changes).symm

/-- Adds the differences of some pairs whose names are below a path. -/
def overPairs (path : String) (pairs : List Pair) (changes : Changes) : Changes :=
  pairs.foldl
    (fun changes pair =>
      withValue (Path.below path pair.name) pair.desired pair.observed changes)
    changes

theorem withMatched_eq_overPairs (path : String) (desired observed : List Attribute)
    (changes : Changes) :
    withMatched path desired observed changes =
      overPairs path (desired.map (Pair.ofDesired observed)) changes := by
  induction desired generalizing changes with
  | nil => simp [withMatched, overPairs]
  | cons field rest ih =>
      obtain ⟨name, value⟩ := field
      rw [withMatched, ih]
      rfl

theorem withSurplus_eq_overPairs (path : String) (desired observed : List Attribute)
    (changes : Changes) :
    withSurplus path desired observed changes =
      overPairs path ((Pair.surplus desired observed).map Pair.ofObserved) changes := by
  rw [withSurplus, overPairs, List.foldl_map, Pair.surplus, List.foldl_filter]
  congr 1
  funext changes field
  rw [Pair.ofObserved, withValue_plain (Value.not_bothObjects_absent_left _ _)]
  cases desired.any (·.1 == field.1) <;> rfl

theorem withSurplus_withMatched (path : String) (desired observed : List Attribute)
    (changes : Changes) :
    withSurplus path desired observed (withMatched path desired observed changes) =
      overPairs path (Pair.all desired observed) changes := by
  rw [withSurplus_eq_overPairs, withMatched_eq_overPairs, overPairs, overPairs, overPairs,
    Pair.all, List.foldl_append]

theorem withValue_objects (path : String) (desired observed : List Attribute)
    (changes : Changes) :
    withValue path (.object (some desired)) (.object (some observed)) changes =
      overPairs path (Pair.all desired observed) changes := by
  rw [withValue, withSurplus_withMatched]

theorem between_eq_overPairs (desired observed : List Attribute) :
    between desired observed = overPairs Path.root (Pair.all desired observed) empty :=
  withSurplus_withMatched Path.root desired observed empty

/-! ## Whether there is a difference -/

theorem isEmpty_record (changes : Changes) (path : String) (old new : Value) :
    (changes.record path old new).isEmpty = false := by
  rw [isEmpty, record, List.isEmpty_eq_false_iff]
  cases changes.differences with
  | nil => simp [place]
  | cons d rest =>
      rw [place]
      split <;> simp

theorem isEmpty_note (changes : Changes) (path : String) (observed desired : Value) :
    (changes.note path observed desired).isEmpty =
      (changes.isEmpty && !desired.disagrees observed) := by
  rw [note]
  split
  · rename_i hdisagrees
    simp [isEmpty_record, hdisagrees]
  · rename_i hagrees
    simp [hagrees]

theorem isEmpty_overPairs {pairs : List Pair}
    (hpairs : ∀ pair ∈ pairs, ∀ path changes,
      (withValue path pair.desired pair.observed changes).isEmpty =
        (changes.isEmpty && !pair.disagrees))
    (path : String) (changes : Changes) :
    (overPairs path pairs changes).isEmpty = (changes.isEmpty && !pairs.any Pair.disagrees) := by
  induction pairs generalizing changes with
  | nil => simp [overPairs]
  | cons pair rest ih =>
      have hrest := ih (fun other hmem => hpairs other (List.mem_cons_of_mem _ hmem))
      have hhead := hpairs pair (List.mem_cons_self ..)
      rw [overPairs, List.foldl_cons, ← overPairs, hrest, hhead, List.any_cons, Bool.not_or,
        Bool.and_assoc]

/-- The step of the walk: what was noted before stays, and something is added exactly when the
two values disagree. -/
theorem isEmpty_withValue (path : String) (desired observed : Value) (changes : Changes) :
    (withValue path desired observed changes).isEmpty =
      (changes.isEmpty && !desired.disagrees observed) := by
  induction desired, observed using Value.paired_induction generalizing path changes with
  | plain desired observed hplain => rw [withValue_plain hplain, isEmpty_note]
  | objects a b ih =>
      rw [withValue_objects, Value.disagrees_objects]
      exact isEmpty_overPairs (fun pair hpair path changes => ih pair hpair path changes) _ _

/-- The comparison and the walk over differences agree on all lists of attributes: there are no
changes from the observed to the desired ones exactly when the two do not disagree. -/
theorem no_changes_iff_fields_agree (desired observed : List Attribute) :
    (ofSpecs (some desired) (some observed)).isEmpty = true ↔
      Value.fieldsDisagree desired observed = false := by
  have hpairs : ∀ pair ∈ Pair.all desired observed, ∀ path changes,
      (withValue path pair.desired pair.observed changes).isEmpty =
        (changes.isEmpty && !pair.disagrees) :=
    fun pair _ path changes => isEmpty_withValue path pair.desired pair.observed changes
  rw [ofSpecs, between_eq_overPairs, isEmpty_overPairs hpairs, Value.fieldsDisagree_eq_any]
  simp [isEmpty, empty]

end Changes
end DbSteward
