import DbSteward.Proofs.Agreement
import DbSteward.Proofs.Place

/-!
# Changes as a patch

Putting the new value of every difference in its place takes a list of observed attributes to one
that agrees with the desired attributes.  The differences of one name only reach the value under
that name, so the names can be settled one after the other, and those under a name settle it by
induction over the two values.
-/

namespace DbSteward

namespace Value

/-- A regular value agrees with itself. -/
theorem Regular.disagrees_self {value : Value} (hregular : value.Regular) :
    value.disagrees value = false :=
  hregular.namesApart.agrees_self_iff.2 hregular.consistent

/-! ## Putting values in their places -/

/-- Puts a value in the place that some names lead to.  An attribute that is missing there is
added. -/
def put : List String → Value → Value → Value
  | [], new, _ => new
  | name :: names, new, .object (some fields) =>
      .object (some (Named.rewrite name (put names new) new.absent fields))
  | _ :: _, _, other => other

def putAll (ms : List Mismatch) (value : Value) : Value :=
  ms.foldl (fun value m => put m.names m.new value) value

theorem putAll_append (first second : List Mismatch) (value : Value) :
    putAll (first ++ second) value = putAll second (putAll first value) :=
  List.foldl_append

/-- What is put below a name that is there is put into its value. -/
theorem putAll_inside {name : String} {value : Value} {fields : List Attribute}
    (hlookup : fields.lookup name = some value) (ms : List Mismatch) :
    ∃ after, putAll (ms.map (.inside name)) (.object (some fields)) = .object (some after) ∧
      after.lookup name = some (putAll ms value) ∧ Named.SameBut name fields after := by
  induction ms generalizing value fields with
  | nil => exact ⟨fields, rfl, hlookup, Named.sameBut_refl name fields⟩
  | cons m rest ih =>
      have hfirst : (Named.rewrite name (put m.names m.new) m.new.absent fields).lookup name =
          some (put m.names m.new value) := by
        rw [Named.lookup_rewrite_self, hlookup, Option.getD_some]
      obtain ⟨after, hafter, hfound, hsame⟩ := ih hfirst
      exact ⟨after, hafter, hfound, (Named.sameBut_rewrite ..).trans hsame⟩

end Value

namespace Pair

/-- The desired value of the pair agrees with what stands under its name in a list. -/
def AgreesIn (pair : Pair) (fields : List Attribute) : Prop :=
  pair.desired.disagrees ((fields.lookup pair.name).getD pair.desired.absent) = false

/-- The step for one name: its mismatches settle it and leave the other names alone. -/
theorem putAll_mismatches {pair : Pair} {fields : List Attribute}
    (hobserved : pair.observed = (fields.lookup pair.name).getD pair.desired.absent)
    (hcloses : pair.desired.disagrees
      (Value.putAll (pair.desired.mismatches pair.observed) pair.observed) = false) :
    ∃ after, Value.putAll pair.mismatches (.object (some fields)) = .object (some after) ∧
      pair.AgreesIn after ∧ Named.SameBut pair.name fields after := by
  cases hlookup : fields.lookup pair.name with
  | some value =>
      rw [hlookup, Option.getD_some] at hobserved
      obtain ⟨after, hafter, hfound, hsame⟩ := Value.putAll_inside hlookup
        (pair.desired.mismatches pair.observed)
      refine ⟨after, hafter, ?_, hsame⟩
      rw [AgreesIn, hfound, Option.getD_some, ← hobserved]
      exact hcloses
  | none =>
      -- Nothing stands there, so that the desired value is put as a whole, if at all.
      rw [hlookup, Option.getD_none] at hobserved
      have hplain : ¬ pair.desired.BothObjects pair.observed := by
        rw [hobserved]
        exact Value.not_bothObjects_absent_right _ _
      rw [mismatches]
      rw [Value.mismatches_plain hplain, Value.plainMismatches] at hcloses ⊢
      split
      · rename_i hdisagrees
        rw [if_pos hdisagrees] at hcloses
        refine ⟨_, rfl, ?_, Named.sameBut_rewrite ..⟩
        rw [AgreesIn, Mismatch.inside, Named.lookup_rewrite_self, Option.getD_some]
        exact hcloses
      · rename_i hagrees
        refine ⟨fields, rfl, ?_, Named.sameBut_refl ..⟩
        rw [AgreesIn, hlookup, Option.getD_none, ← hobserved]
        exact Bool.not_eq_true _ ▸ hagrees

/-- The run over all names: each pair agrees in the end, and no other name is touched. -/
theorem putAll_flatMap {pairs : List Pair} (hnames : (pairs.map name).Nodup)
    {fields : List Attribute}
    (hobserved : ∀ pair ∈ pairs,
      pair.observed = (fields.lookup pair.name).getD pair.desired.absent)
    (hcloses : ∀ pair ∈ pairs, pair.desired.disagrees
      (Value.putAll (pair.desired.mismatches pair.observed) pair.observed) = false) :
    ∃ after, Value.putAll (pairs.flatMap mismatches) (.object (some fields)) =
        .object (some after) ∧
      (∀ pair ∈ pairs, pair.AgreesIn after) ∧
      (∀ other ∉ pairs.map name, after.lookup other = fields.lookup other) ∧
      ((fields.map Prod.fst).Nodup → (after.map Prod.fst).Nodup) := by
  induction pairs generalizing fields with
  | nil => exact ⟨fields, rfl, by simp, fun _ _ => rfl, fun hnodup => hnodup⟩
  | cons pair rest ih =>
      obtain ⟨hnot, hrest⟩ := List.nodup_cons.1 hnames
      obtain ⟨middle, hmiddle, hagrees, hsame⟩ :=
        putAll_mismatches (hobserved pair (List.mem_cons_self ..))
          (hcloses pair (List.mem_cons_self ..))
      have hlater : ∀ other ∈ rest,
          other.observed = (middle.lookup other.name).getD other.desired.absent := by
        intro other hmem
        have hne : other.name ≠ pair.name :=
          fun heq => hnot (heq ▸ List.mem_map_of_mem (f := name) hmem)
        rw [hsame.others _ hne]
        exact hobserved other (List.mem_cons_of_mem _ hmem)
      obtain ⟨after, hafter, hall, hothers, hnodup⟩ :=
        ih hrest hlater fun other hmem => hcloses other (List.mem_cons_of_mem _ hmem)
      refine ⟨after, ?_, ?_, ?_, fun hfields => hnodup (hsame.nodup hfields)⟩
      · rw [List.flatMap_cons, Value.putAll_append, hmiddle, hafter]
      · intro other hmem
        rcases List.mem_cons.1 hmem with rfl | htail
        · -- The later names leave the value of this one alone.
          rw [AgreesIn, hothers _ hnot]
          exact hagrees
        · exact hall other htail
      · intro other hother
        rw [List.map_cons, List.mem_cons, not_or] at hother
        rw [hothers other hother.2, hsame.others other hother.1]

theorem observed_of_mem_all {desired observed : List Attribute}
    (hobserved : (observed.map Prod.fst).Nodup) {pair : Pair}
    (hmem : pair ∈ all desired observed) :
    pair.observed = (observed.lookup pair.name).getD pair.desired.absent := by
  rcases mem_all_iff.1 hmem with ⟨field, -, rfl⟩ | ⟨field, hfield, rfl⟩
  · rfl
  · have hlookup := Named.lookup_of_mem hobserved (mem_surplus_iff.1 hfield).1
    rw [ofObserved, hlookup, Option.getD_some]

/-- Lists agree if every pair of the one with another list agrees in the second and no further
name stands there. -/
theorem fieldsAgree_of_agreesIn {desired observed after : List Attribute}
    (hall : ∀ pair ∈ all desired observed, pair.AgreesIn after)
    (hothers : ∀ other ∉ (all desired observed).map name,
      after.lookup other = observed.lookup other)
    (hnames : (after.map Prod.fst).Nodup) :
    Value.fieldsDisagree desired after = false := by
  rw [Value.fieldsDisagree_eq_any, List.any_eq_false]
  intro pair hpair
  rw [Bool.not_eq_true]
  rcases mem_all_iff.1 hpair with ⟨field, hfield, rfl⟩ | ⟨field, hfield, rfl⟩
  · exact hall (ofDesired observed field) (mem_all_iff.2 (.inl ⟨field, hfield, rfl⟩))
  · obtain ⟨hafter, hmissing⟩ := mem_surplus_iff.1 hfield
    have hlookup : after.lookup field.1 = some field.2 := Named.lookup_of_mem hnames hafter
    have hnamed : field.1 ∈ observed.map Prod.fst := by
      by_contra hnot
      have hunnamed : field.1 ∉ (all desired observed).map name := by
        rw [names_all, names, List.mem_append, not_or]
        exact ⟨hmissing, fun hsurplus => hnot (List.mem_filter.1 hsurplus).1⟩
      rw [hothers _ hunnamed, Named.lookup_eq_none_iff.2 hnot] at hlookup
      cases hlookup
    obtain ⟨other, hother, hname⟩ := List.mem_map.1 hnamed
    have hsurplus : other ∈ surplus desired observed :=
      mem_surplus_iff.2 ⟨hother, hname ▸ hmissing⟩
    have hagrees := hall (ofObserved other) (mem_all_iff.2 (.inr ⟨other, hsurplus, rfl⟩))
    rw [AgreesIn, ofObserved, hname, hlookup, Option.getD_some] at hagrees
    rw [disagrees, ofObserved, Value.absent_disagrees]
    exact Value.isPresent_eq_false_of_agreement hagrees

end Pair

namespace Value

theorem exists_of_putAll_objects {a b : List Attribute} (hdesired : Regular (.object (some a)))
    (hobserved : Regular (.object (some b)))
    (hcloses : ∀ pair ∈ Pair.all a b, pair.desired.disagrees
      (putAll (pair.desired.mismatches pair.observed) pair.observed) = false) :
    ∃ after, putAll ((object (some a)).mismatches (.object (some b))) (.object (some b)) =
        .object (some after) ∧
      fieldsDisagree a after = false := by
  obtain ⟨after, hafter, hall, hothers, hnodup⟩ := Pair.putAll_flatMap
    (Pair.names_all_nodup hdesired hobserved)
    (fun pair hpair => Pair.observed_of_mem_all hobserved.names_nodup hpair) hcloses
  rw [mismatches_objects]
  exact ⟨after, hafter, Pair.fieldsAgree_of_agreesIn hall hothers (hnodup hobserved.names_nodup)⟩

/-- The mismatches of two regular values, put in their places, settle them. -/
theorem disagrees_putAll_mismatches {desired observed : Value} (hdesired : desired.Regular)
    (hobserved : observed.Regular) :
    desired.disagrees (putAll (desired.mismatches observed) observed) = false := by
  induction desired, observed using paired_induction with
  | plain desired observed hplain =>
      rw [mismatches_plain hplain, plainMismatches]
      split
      · exact hdesired.disagrees_self
      · rename_i hagrees
        rwa [Bool.not_eq_true] at hagrees
  | objects a b ih =>
      obtain ⟨after, hafter, hagree⟩ := exists_of_putAll_objects hdesired hobserved
        fun pair hpair => by
          obtain ⟨hwanted, hfound⟩ := (Pair.between_of_mem_all hpair).regular hdesired hobserved
          exact ih pair hpair hwanted hfound
      rw [hafter, disagrees_objects, ← fieldsDisagree_eq_any]
      exact hagree

end Value

/-- The names that a path leads along from the root. -/
def Difference.names (d : Difference) : List String :=
  (Path.segments d.path).tail.map String.ofList

namespace Changes

/-- Puts the new value of every difference in its place, in order. -/
def patch (changes : Changes) (value : Value) : Value :=
  changes.differences.foldl (fun value d => Value.put d.names d.new value) value

theorem names_under_root {m : Mismatch} (hplain : ∀ name ∈ m.names, '.' ∉ name.toList) :
    (m.under Path.root).names = m.names := by
  have hroot : Path.segments Path.root = ["Spec".toList] := by decide
  rw [Difference.names, Mismatch.under, Path.segments_along hplain, hroot, List.singleton_append,
    List.tail_cons, List.map_map]
  simp

theorem patch_under_root {ms : List Mismatch}
    (hplain : ∀ m ∈ ms, ∀ name ∈ m.names, '.' ∉ name.toList) (value : Value) :
    (Changes.mk (ms.map (Mismatch.under Path.root))).patch value = value.putAll ms := by
  induction ms generalizing value with
  | nil => rfl
  | cons m rest ih =>
      have hrest := ih (fun other hmem => hplain other (List.mem_cons_of_mem _ hmem))
        (Value.put m.names m.new value)
      have hhead := names_under_root (hplain m (List.mem_cons_self ..))
      unfold patch at hrest ⊢
      rw [List.map_cons, List.foldl_cons, hhead]
      exact hrest

section Regular

variable {desired observed : List Attribute}
  (hdesired : Value.Regular (.object (some desired)))
  (hobserved : Value.Regular (.object (some observed)))

include hdesired hobserved

theorem between_eq_mismatches :
    between desired observed =
      ⟨((Value.object (some desired)).mismatches (.object (some observed))).map
        (Mismatch.under Path.root)⟩ := by
  have hwalk := withValue_eq_append_mismatches hdesired hobserved (freshAt_empty Path.root)
  rw [withValue_objects, ← between_eq_overPairs] at hwalk
  exact hwalk

theorem mem_between_iff (d : Difference) :
    d ∈ (between desired observed).differences ↔
      d.path = Path.along Path.root d.names ∧
        Value.Meet (.object (some desired)) (.object (some observed)) d.names d.new d.old ∧
        d.new.disagrees d.old = true ∧ ¬ Value.BothObjects d.new d.old := by
  rw [between_eq_mismatches hdesired hobserved, List.mem_map]
  constructor
  · rintro ⟨m, hm, rfl⟩
    rw [names_under_root (Value.names_plain_of_mem_mismatches hdesired hobserved hm)]
    exact ⟨rfl, (Value.mem_mismatches_iff hdesired hobserved).1 hm⟩
  · rintro ⟨hpath, hplace⟩
    refine ⟨⟨d.names, d.old, d.new⟩, (Value.mem_mismatches_iff hdesired hobserved).2 hplace, ?_⟩
    rw [Mismatch.under, ← hpath]

theorem between_pairwise_before :
    (between desired observed).differences.Pairwise fun d e =>
      Value.Before (.object (some desired)) (.object (some observed)) d.names e.names := by
  rw [between_eq_mismatches hdesired hobserved, List.pairwise_map]
  refine (Value.mismatches_pairwise_before _ _).imp_of_mem fun hm hn hbefore => ?_
  rw [names_under_root (Value.names_plain_of_mem_mismatches hdesired hobserved hm),
    names_under_root (Value.names_plain_of_mem_mismatches hdesired hobserved hn)]
  exact hbefore

theorem nodup_paths_between : (between desired observed).paths.Nodup := by
  rw [paths, List.Nodup, List.pairwise_map, between_eq_mismatches hdesired hobserved,
    List.pairwise_map]
  refine (Value.mismatches_pairwise_before _ _).imp_of_mem fun hm hn hbefore hpath => ?_
  refine hbefore.ne hdesired hobserved (Path.along_injective ?_ ?_ hpath)
  · exact Value.names_plain_of_mem_mismatches hdesired hobserved hm
  · exact Value.names_plain_of_mem_mismatches hdesired hobserved hn

theorem patch_between :
    ∃ patched, (between desired observed).patch (.object (some observed)) =
        .object (some patched) ∧
      Value.fieldsDisagree desired patched = false := by
  have hpatch : (between desired observed).patch (.object (some observed)) =
      Value.putAll ((Value.object (some desired)).mismatches (.object (some observed)))
        (.object (some observed)) := by
    rw [between_eq_mismatches hdesired hobserved]
    exact patch_under_root
      (fun m hm => Value.names_plain_of_mem_mismatches hdesired hobserved hm) _
  obtain ⟨patched, hpatched, hagree⟩ := Value.exists_of_putAll_objects hdesired hobserved
    fun pair hpair => by
      obtain ⟨hwanted, hfound⟩ := (Pair.between_of_mem_all hpair).regular hdesired hobserved
      exact Value.disagrees_putAll_mismatches hwanted hfound
  exact ⟨patched, hpatch.trans hpatched, hagree⟩

/-- The changes between two lists of attributes are a patch from the observed to the desired ones.
There is a difference at a path exactly when it leads through objects that are there on both sides
to two values that disagree and are not both objects, and the observed value is the old one.  The
differences have paths of their own and come depth first, as the attributes are desired, with those
that are only observed last.  Put in their places in the observed list, the new values make it
agree with the desired one. -/
theorem changes_patch_observed :
    (∀ d : Difference, d ∈ (between desired observed).differences ↔
      d.path = Path.along Path.root d.names ∧
        Value.Meet (.object (some desired)) (.object (some observed)) d.names d.new d.old ∧
        d.new.disagrees d.old = true ∧ ¬ Value.BothObjects d.new d.old) ∧
      (between desired observed).paths.Nodup ∧
      ((between desired observed).differences.Pairwise fun d e =>
        Value.Before (.object (some desired)) (.object (some observed)) d.names e.names) ∧
      ∃ patched, (between desired observed).patch (.object (some observed)) =
          .object (some patched) ∧
        Value.fieldsDisagree desired patched = false :=
  ⟨mem_between_iff hdesired hobserved, nodup_paths_between hdesired hobserved,
    between_pairwise_before hdesired hobserved, patch_between hdesired hobserved⟩

end Regular

def sampleDesired : List Attribute :=
  [("Port", .ofInteger (some 5433)),
    ("Scaling", .object (some [("MaxCapacity", .ofInteger (some 8)),
      ("MinCapacity", .ofInteger (some 1))])),
    ("Tags", .tags [⟨"team", some "db"⟩])]

def sampleObserved : List Attribute :=
  [("Scaling", .object (some [("MinCapacity", .ofInteger (some 1)),
      ("MaxCapacity", .ofInteger (some 4))])),
    ("Engine", .ofText (some "mysql")),
    ("Port", .ofInteger (some 5432))]

/-- Four differences, one of them inside an object and one at a name that is only observed, take
the observed attributes to the desired ones. -/
theorem four_changes_patch_observed :
    (between sampleDesired sampleObserved).paths =
        ["Spec.Port", "Spec.Scaling.MaxCapacity", "Spec.Tags", "Spec.Engine"] ∧
      ∃ patched, (between sampleDesired sampleObserved).patch (.object (some sampleObserved)) =
          .object (some patched) ∧
        Value.fieldsDisagree sampleDesired patched = false := by
  have hdesired : Value.Regular (.object (some sampleDesired)) := by
    refine .object (by decide) (by decide) ?_
    simp only [sampleDesired, List.forall_mem_cons, List.not_mem_nil, IsEmpty.forall_iff,
      implies_true, and_true]
    refine ⟨.scalar _, .object (by decide) (by decide) ?_, .tags (by decide)⟩
    simp only [List.forall_mem_cons, List.not_mem_nil, IsEmpty.forall_iff, implies_true, and_true]
    exact ⟨.scalar _, .scalar _⟩
  have hobserved : Value.Regular (.object (some sampleObserved)) := by
    refine .object (by decide) (by decide) ?_
    simp only [sampleObserved, List.forall_mem_cons, List.not_mem_nil, IsEmpty.forall_iff,
      implies_true, and_true]
    refine ⟨.object (by decide) (by decide) ?_, .scalar _, .scalar _⟩
    simp only [List.forall_mem_cons, List.not_mem_nil, IsEmpty.forall_iff, implies_true, and_true]
    exact ⟨.scalar _, .scalar _⟩
  obtain ⟨-, -, -, hpatched⟩ := changes_patch_observed hdesired hobserved
  exact ⟨by decide, hpatched⟩

end Changes
end DbSteward
