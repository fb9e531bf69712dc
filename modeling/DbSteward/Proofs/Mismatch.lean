import DbSteward.Proofs.Naming
import DbSteward.Proofs.Pairing
import DbSteward.Proofs.Tag

/-!
# Mismatches

Where the names in two lists of attributes are told apart and hold no point, every difference has
a place of its own, and the walk over differences only ever adds at the end.  What it adds is
computed here with the names that lead to a place instead of a path, so that it can be described
by induction over the two values.
-/

namespace DbSteward

/-! ## Regular values -/

namespace Value

/-- The names in every object are told apart and hold no point, and the keys of tags are told
apart. -/
inductive Regular : Value → Prop where
  | scalar (s : Option Scalar) : Regular (.scalar s)
  | list (items : List Scalar) : Regular (.list items)
  | set (items : List String) : Regular (.set items)
  | tags {items : List Tag} (hkeys : Tag.DistinctKeys items) : Regular (.tags items)
  | map (entries : Overrides) : Regular (.map entries)
  | missing : Regular (.object none)
  | object {fields : List Attribute} (hnames : (fields.map Prod.fst).Nodup)
      (hplain : ∀ field ∈ fields, '.' ∉ field.1.toList)
      (hvalues : ∀ field ∈ fields, Regular field.2) : Regular (.object (some fields))

theorem regular_absent (value : Value) : value.absent.Regular := by
  cases value with
  | scalar s => exact .scalar none
  | list items => exact .list []
  | set items => exact .set []
  | tags items => exact .tags List.nodup_nil
  | map entries => exact .map Table.empty
  | object fields => exact .missing

namespace Regular

variable {fields : List Attribute} (hregular : Regular (.object (some fields)))

include hregular

theorem names_nodup : (fields.map Prod.fst).Nodup := by
  cases hregular with
  | object hnames hplain hvalues => exact hnames

theorem name_plain {field : Attribute} (hmem : field ∈ fields) : '.' ∉ field.1.toList := by
  cases hregular with
  | object hnames hplain hvalues => exact hplain field hmem

theorem value_regular {field : Attribute} (hmem : field ∈ fields) : field.2.Regular := by
  cases hregular with
  | object hnames hplain hvalues => exact hvalues field hmem

end Regular

end Value

/-! ## The pairs of regular lists -/

namespace Pair

/-- The pair holds what stands under a name in two lists.  What is missing in one of them is the
absent value of its kind. -/
inductive Between (desired observed : List Attribute) : Pair → Prop where
  | both {name : String} {wanted found : Value} (hdesired : (name, wanted) ∈ desired)
      (hobserved : (name, found) ∈ observed) : Between desired observed ⟨name, wanted, found⟩
  | desiredOnly {name : String} {wanted : Value} (hdesired : (name, wanted) ∈ desired)
      (hmissing : name ∉ observed.map Prod.fst) :
      Between desired observed ⟨name, wanted, wanted.absent⟩
  | observedOnly {name : String} {found : Value} (hmissing : name ∉ desired.map Prod.fst)
      (hobserved : (name, found) ∈ observed) :
      Between desired observed ⟨name, found.absent, found⟩

/-- The names in two lists in order, those that are only observed last. -/
def names (desired observed : List Attribute) : List String :=
  desired.map Prod.fst ++ (observed.map Prod.fst).filter fun name => name ∉ desired.map Prod.fst

variable {desired observed : List Attribute}

theorem isNamed_iff {name : String} :
    (desired.any (·.1 == name)) = true ↔ name ∈ desired.map Prod.fst := by
  rw [List.any_eq_true, List.mem_map]
  exact exists_congr fun field => and_congr_right' beq_iff_eq

theorem mem_surplus_iff {field : Attribute} :
    field ∈ surplus desired observed ↔ field ∈ observed ∧ field.1 ∉ desired.map Prod.fst := by
  rw [surplus, List.mem_filter, Bool.not_eq_true', ← Bool.not_eq_true, isNamed_iff]

theorem names_surplus (desired observed : List Attribute) :
    (surplus desired observed).map Prod.fst =
      (observed.map Prod.fst).filter fun name => name ∉ desired.map Prod.fst := by
  rw [surplus, List.filter_map]
  congr 1
  apply List.filter_congr
  intro field hmem
  rw [Bool.eq_iff_iff, Bool.not_eq_true', ← Bool.not_eq_true, isNamed_iff]
  exact decide_eq_true_iff.symm

theorem names_all (desired observed : List Attribute) :
    (all desired observed).map name = names desired observed := by
  rw [all, List.map_append, List.map_map, List.map_map, names, ← names_surplus]
  rfl

theorem names_nodup (hdesired : (desired.map Prod.fst).Nodup)
    (hobserved : (observed.map Prod.fst).Nodup) : (names desired observed).Nodup := by
  rw [names, List.nodup_append']
  refine ⟨hdesired, hobserved.filter _, ?_⟩
  intro name hmem hsurplus
  exact of_decide_eq_true (List.mem_filter.1 hsurplus).2 hmem

theorem between_of_mem_all {pair : Pair} (hmem : pair ∈ all desired observed) :
    Between desired observed pair := by
  rcases mem_all_iff.1 hmem with ⟨⟨name, wanted⟩, hfield, rfl⟩ | ⟨⟨name, found⟩, hfield, rfl⟩
  · rw [ofDesired]
    cases hlookup : observed.lookup name with
    | none => exact .desiredOnly hfield (Named.lookup_eq_none_iff.1 hlookup)
    | some found => exact .both hfield (Named.mem_of_lookup hlookup)
  · obtain ⟨hobserved, hmissing⟩ := mem_surplus_iff.1 hfield
    exact .observedOnly hmissing hobserved

theorem mem_all_of_between (hobserved : (observed.map Prod.fst).Nodup) {pair : Pair}
    (hbetween : Between desired observed pair) : pair ∈ all desired observed := by
  rw [mem_all_iff]
  cases hbetween with
  | @both name wanted found hdesired hfound =>
      refine .inl ⟨(name, wanted), hdesired, ?_⟩
      rw [ofDesired, Named.lookup_of_mem hobserved hfound, Option.getD_some]
  | @desiredOnly name wanted hdesired hmissing =>
      refine .inl ⟨(name, wanted), hdesired, ?_⟩
      rw [ofDesired, Named.lookup_eq_none_iff.2 hmissing, Option.getD_none]
  | @observedOnly name found hmissing hfound =>
      exact .inr ⟨(name, found), mem_surplus_iff.2 ⟨hfound, hmissing⟩, rfl⟩

section Regular

variable (hdesired : Value.Regular (.object (some desired)))
  (hobserved : Value.Regular (.object (some observed)))

include hdesired hobserved

theorem Between.regular {pair : Pair} (hbetween : Between desired observed pair) :
    pair.desired.Regular ∧ pair.observed.Regular := by
  cases hbetween with
  | both hwanted hfound => exact ⟨hdesired.value_regular hwanted, hobserved.value_regular hfound⟩
  | desiredOnly hwanted hmissing =>
      exact ⟨hdesired.value_regular hwanted, Value.regular_absent _⟩
  | observedOnly hmissing hfound => exact ⟨Value.regular_absent _, hobserved.value_regular hfound⟩

theorem Between.name_plain {pair : Pair} (hbetween : Between desired observed pair) :
    '.' ∉ pair.name.toList := by
  cases hbetween with
  | both hwanted hfound => exact hdesired.name_plain hwanted
  | desiredOnly hwanted hmissing => exact hdesired.name_plain hwanted
  | observedOnly hmissing hfound => exact hobserved.name_plain hfound

theorem names_all_nodup : ((all desired observed).map name).Nodup := by
  rw [names_all]
  exact names_nodup hdesired.names_nodup hobserved.names_nodup

end Regular

end Pair

/-! ## Paths along names -/

namespace Path

/-- The path that leads along some names, one below the other. -/
def along (path : String) (names : List String) : String :=
  names.foldl below path

theorem covers_along (path : String) (names : List String) :
    covers path (along path names) = true := by
  induction names generalizing path with
  | nil => exact covers_iff_segments.2 (List.prefix_refl _)
  | cons name rest ih => exact Changes.covers_trans (Changes.covers_below path name) (ih _)

theorem segments_along {names : List String} (hplain : ∀ name ∈ names, '.' ∉ name.toList)
    (path : String) : segments (along path names) = segments path ++ names.map String.toList := by
  induction names generalizing path with
  | nil => simp [along]
  | cons name rest ih =>
      have hrest := ih (fun other hmem => hplain other (List.mem_cons_of_mem _ hmem))
        (below path name)
      rw [along, List.foldl_cons, ← along, hrest, segments_below,
        segments_of_plain (hplain name (List.mem_cons_self ..)), List.append_assoc]
      rfl

theorem along_injective {path : String} {first second : List String}
    (hfirst : ∀ name ∈ first, '.' ∉ name.toList) (hsecond : ∀ name ∈ second, '.' ∉ name.toList)
    (heq : along path first = along path second) : first = second := by
  have hsegments := congrArg segments heq
  rw [segments_along hfirst, segments_along hsecond] at hsegments
  exact List.map_injective_iff.2 (fun _ _ => String.toList_inj.1)
    (List.append_cancel_left hsegments)

/-- No path is below two names at one place. -/
theorem eq_of_covers_below {path deeper first second : String} (hfirst : '.' ∉ first.toList)
    (hsecond : '.' ∉ second.toList) (hunder : covers (below path first) deeper = true)
    (hother : covers (below path second) deeper = true) : first = second := by
  rw [covers_iff_segments, segments_below, segments_of_plain hfirst] at hunder
  rw [covers_iff_segments, segments_below, segments_of_plain hsecond] at hother
  have hsame := (List.prefix_of_prefix_length_le hunder hother (by simp)).eq_of_length (by simp)
  have hname : [first.toList] = [second.toList] := List.append_cancel_left hsame
  exact String.toList_inj.1 (List.singleton_inj.1 hname)

end Path

/-! ## What the walk adds -/

/-- A difference with the names that lead to it, from the outside in. -/
structure Mismatch where
  names : List String
  old : Value
  new : Value

namespace Mismatch

def inside (name : String) (m : Mismatch) : Mismatch :=
  { m with names := name :: m.names }

def under (path : String) (m : Mismatch) : Difference where
  path := Path.along path m.names
  old := m.old
  new := m.new

end Mismatch

namespace Value

/-- The mismatch of two values that are not compared field by field. -/
def plainMismatches (desired observed : Value) : List Mismatch :=
  if desired.disagrees observed then [⟨[], observed, desired⟩] else []

mutual
def mismatches : Value → Value → List Mismatch
  | .object (some desired), .object (some observed) =>
      matchedMismatches desired observed ++
        (Pair.surplus desired observed).flatMap fun field =>
          (plainMismatches field.2.absent field.2).map (.inside field.1)
  | desired, observed => plainMismatches desired observed

def matchedMismatches : List Attribute → List Attribute → List Mismatch
  | [], _ => []
  | (name, desired) :: rest, observed =>
      (desired.mismatches ((observed.lookup name).getD desired.absent)).map (.inside name) ++
        matchedMismatches rest observed
end

theorem mismatches_plain {desired observed : Value} (hplain : ¬ BothObjects desired observed) :
    desired.mismatches observed = plainMismatches desired observed := by
  unfold mismatches
  split
  · exact absurd ⟨_, _, rfl, rfl⟩ hplain
  · rfl

end Value

namespace Pair

def mismatches (pair : Pair) : List Mismatch :=
  (pair.desired.mismatches pair.observed).map (.inside pair.name)

theorem map_under_mismatches (path : String) (pair : Pair) :
    pair.mismatches.map (Mismatch.under path) =
      (pair.desired.mismatches pair.observed).map (Mismatch.under (Path.below path pair.name)) := by
  rw [mismatches, List.map_map]
  rfl

end Pair

namespace Value

theorem matchedMismatches_eq_flatMap (desired observed : List Attribute) :
    matchedMismatches desired observed =
      (desired.map (Pair.ofDesired observed)).flatMap Pair.mismatches := by
  induction desired with
  | nil => simp [matchedMismatches]
  | cons field rest ih =>
      obtain ⟨name, value⟩ := field
      rw [matchedMismatches, ih, List.map_cons, List.flatMap_cons]
      rfl

theorem mismatches_objects (desired observed : List Attribute) :
    (object (some desired)).mismatches (object (some observed)) =
      (Pair.all desired observed).flatMap Pair.mismatches := by
  have hsurplus : ∀ field : Attribute, (Pair.ofObserved field).mismatches =
      (plainMismatches field.2.absent field.2).map (.inside field.1) := by
    intro field
    rw [Pair.mismatches, Pair.ofObserved, mismatches_plain (not_bothObjects_absent_left _ _)]
  rw [mismatches, matchedMismatches_eq_flatMap, Pair.all, List.flatMap_append,
    List.flatMap_map (f := Pair.ofObserved)]
  simp only [hsurplus]

end Value

namespace Changes

theorem FreshAt.append_mismatches {changes : Changes} {path first second : String}
    (hfirst : '.' ∉ first.toList) (hsecond : '.' ∉ second.toList) (hne : first ≠ second)
    (hfresh : changes.FreshAt (Path.below path second)) (ms : List Mismatch) :
    (changes.append (ms.map (Mismatch.under (Path.below path first)))).FreshAt
      (Path.below path second) := by
  intro d hmem
  rcases List.mem_append.1 hmem with hold | hnew
  · exact hfresh d hold
  · obtain ⟨m, -, rfl⟩ := List.mem_map.1 hnew
    rw [Bool.eq_false_iff]
    intro hcovers
    exact hne (Path.eq_of_covers_below hfirst hsecond (Path.covers_along _ m.names) hcovers)

theorem overPairs_eq_append {path : String} {pairs : List Pair}
    (hnames : (pairs.map Pair.name).Nodup) (hplain : ∀ pair ∈ pairs, '.' ∉ pair.name.toList)
    (hstep : ∀ pair ∈ pairs, ∀ path (changes : Changes), changes.FreshAt path →
      withValue path pair.desired pair.observed changes =
        changes.append ((pair.desired.mismatches pair.observed).map (Mismatch.under path)))
    {changes : Changes} (hfresh : ∀ pair ∈ pairs, changes.FreshAt (Path.below path pair.name)) :
    overPairs path pairs changes =
      changes.append ((pairs.flatMap Pair.mismatches).map (Mismatch.under path)) := by
  induction pairs generalizing changes with
  | nil => simp [overPairs]
  | cons pair rest ih =>
      obtain ⟨hnot, hrest⟩ := List.nodup_cons.1 hnames
      have hhead := hstep pair (List.mem_cons_self ..) _ changes
        (hfresh pair (List.mem_cons_self ..))
      have hlater : ∀ other ∈ rest,
          (changes.append ((pair.desired.mismatches pair.observed).map
            (Mismatch.under (Path.below path pair.name)))).FreshAt
              (Path.below path other.name) := by
        intro other hmem
        have hne : pair.name ≠ other.name :=
          fun heq => hnot (heq ▸ List.mem_map_of_mem (f := Pair.name) hmem)
        exact (hfresh other (List.mem_cons_of_mem _ hmem)).append_mismatches
          (hplain pair (List.mem_cons_self ..)) (hplain other (List.mem_cons_of_mem _ hmem)) hne _
      have htail := ih hrest (fun other hmem => hplain other (List.mem_cons_of_mem _ hmem))
        (fun other hmem => hstep other (List.mem_cons_of_mem _ hmem)) hlater
      rw [overPairs, List.foldl_cons, hhead, ← overPairs, htail, append_append,
        List.flatMap_cons, List.map_append, Pair.map_under_mismatches]

/-- The step of the walk: where nothing has been noted yet, two regular values add their
mismatches at the end. -/
theorem withValue_eq_append_mismatches {desired observed : Value} (hdesired : desired.Regular)
    (hobserved : observed.Regular) {path : String} {changes : Changes}
    (hfresh : changes.FreshAt path) :
    withValue path desired observed changes =
      changes.append ((desired.mismatches observed).map (Mismatch.under path)) := by
  induction desired, observed using Value.paired_induction generalizing path changes with
  | plain desired observed hplain =>
      rw [withValue_plain hplain, note_eq_append fun d hmem => hfresh.ne hmem,
        Value.mismatches_plain hplain, plainDifferencesAt, Value.plainMismatches]
      split <;> rfl
  | objects a b ih =>
      rw [withValue_objects, Value.mismatches_objects]
      refine overPairs_eq_append (Pair.names_all_nodup hdesired hobserved) ?_ ?_ ?_
      · intro pair hpair
        exact (Pair.between_of_mem_all hpair).name_plain hdesired hobserved
      · intro pair hpair path changes hfresh
        obtain ⟨hwanted, hfound⟩ := (Pair.between_of_mem_all hpair).regular hdesired hobserved
        exact ih pair hpair hwanted hfound hfresh
      · intro pair hpair
        exact hfresh.below pair.name

end Changes

end DbSteward
