import DbSteward.Proofs.Comparison
import DbSteward.Proofs.Mismatch
import Mathlib.Data.List.Forall2
import Mathlib.Data.List.Zip

/-!
# Agreement

Two values agree when the comparison finds no difference.  Which of them is the desired one makes
no difference to that, and every value agrees with itself, as long as the names in every object
are told apart and no list of tags has two values under one key.  A list that does is looked up by
its last tag on the one side and walked tag by tag on the other, so that it differs from itself.
-/

namespace DbSteward

/-! ## Scalars -/

theorem Scalar.same_comm (a b : Scalar) : a.same b = b.same a := by
  cases a <;> cases b <;> first | rfl | exact BEq.comm | exact Binary64.same_comm _ _

section Items

variable {α : Type} {same : α → α → Bool}

theorem listDisagrees_eq_false_iff {a b : List α} :
    listDisagrees same a b = false ↔ List.Forall₂ (fun x y => same x y = true) a b := by
  induction a generalizing b with
  | nil => cases b <;> simp [listDisagrees]
  | cons x a ih =>
      cases b with
      | nil => simp [listDisagrees]
      | cons y b =>
          rw [List.forall₂_cons, ← ih]
          simp only [listDisagrees, List.length_cons, List.zip_cons_cons, List.any_cons]
          cases same x y <;> simp

variable (hcomm : ∀ x y, same x y = same y x)

include hcomm

theorem optionDisagrees_comm (a b : Option α) :
    optionDisagrees same a b = optionDisagrees same b a := by
  cases a <;> cases b <;> simp [optionDisagrees, hcomm]

theorem listDisagrees_comm (a b : List α) : listDisagrees same a b = listDisagrees same b a := by
  have hpairs : (fun pair : α × α => !same pair.1 pair.2) =
      (fun pair => !same pair.1 pair.2) ∘ Prod.swap := by
    funext pair
    rw [Function.comp_apply, Prod.fst_swap, Prod.snd_swap, hcomm]
  rw [listDisagrees, listDisagrees, bne_comm, ← List.zip_swap b a, List.any_map, ← hpairs]

end Items

/-! ## Values of one kind -/

namespace Value

/-- Both values are compared in the same way. -/
inductive SameKind : Value → Value → Prop where
  | scalars (a b : Option Scalar) : SameKind (.scalar a) (.scalar b)
  | lists (a b : List Scalar) : SameKind (.list a) (.list b)
  | sets (a b : List String) : SameKind (.set a) (.set b)
  | tags (a b : List Tag) : SameKind (.tags a) (.tags b)
  | maps (a b : Overrides) : SameKind (.map a) (.map b)
  | objects (a b : Option (List Attribute)) : SameKind (.object a) (.object b)

theorem sameKind_of_agreement {a b : Value} (hagree : a.disagrees b = false) : SameKind a b := by
  unfold disagrees at hagree
  split at hagree
  all_goals first | constructor | exact Bool.noConfusion hagree

theorem SameKind.absent_eq {a b : Value} (hsame : SameKind a b) : a.absent = b.absent := by
  cases hsame <;> rfl

theorem absent_absent (value : Value) : value.absent.absent = value.absent := by
  cases value <;> rfl

/-- Nothing but an absent value agrees with an absent value. -/
theorem isPresent_eq_false_of_agreement {a b : Value} (hagree : a.absent.disagrees b = false) :
    b.isPresent = false := by
  have hkinds := (sameKind_of_agreement hagree).absent_eq
  rw [absent_absent] at hkinds
  rw [← absent_disagrees, ← hkinds]
  exact hagree

/-! ## What is said twice -/

/-- No object in the value has a name twice. -/
inductive NamesApart : Value → Prop where
  | plain {value : Value} (hplain : ∀ fields, value ≠ .object (some fields)) : NamesApart value
  | object {fields : List Attribute} (hnames : (fields.map Prod.fst).Nodup)
      (hvalues : ∀ field ∈ fields, NamesApart field.2) : NamesApart (.object (some fields))

/-- No list of tags in the value has two values under one key. -/
inductive Consistent : Value → Prop where
  | scalar (s : Option Scalar) : Consistent (.scalar s)
  | list (items : List Scalar) : Consistent (.list items)
  | set (items : List String) : Consistent (.set items)
  | tags {items : List Tag} (hitems : Tag.Consistent items) : Consistent (.tags items)
  | map (entries : Overrides) : Consistent (.map entries)
  | missing : Consistent (.object none)
  | object {fields : List Attribute} (hvalues : ∀ field ∈ fields, Consistent field.2) :
      Consistent (.object (some fields))

theorem tags_consistent_iff {items : List Tag} :
    (tags items).Consistent ↔ Tag.Consistent items :=
  ⟨fun | .tags hitems => hitems, .tags⟩

theorem object_consistent_iff {fields : List Attribute} :
    (object (some fields)).Consistent ↔ ∀ field ∈ fields, field.2.Consistent :=
  ⟨fun | .object hvalues => hvalues, .object⟩

theorem consistent_absent (value : Value) : value.absent.Consistent := by
  cases value with
  | scalar s => exact .scalar none
  | list items => exact .list []
  | set items => exact .set []
  | tags items => exact .tags fun a ha => absurd ha List.not_mem_nil
  | map entries => exact .map Table.empty
  | object fields => exact .missing

theorem namesApart_absent (value : Value) : value.absent.NamesApart := by
  refine .plain fun fields habsent => ?_
  cases value <;> simp [absent] at habsent

namespace NamesApart

variable {fields : List Attribute} (hapart : NamesApart (.object (some fields)))

include hapart

theorem names_nodup : (fields.map Prod.fst).Nodup := by
  cases hapart with
  | plain hplain => exact absurd rfl (hplain fields)
  | object hnames hvalues => exact hnames

theorem value_apart {field : Attribute} (hmem : field ∈ fields) : field.2.NamesApart := by
  cases hapart with
  | plain hplain => exact absurd rfl (hplain fields)
  | object hnames hvalues => exact hvalues field hmem

end NamesApart

theorem Regular.namesApart {value : Value} (hregular : value.Regular) : value.NamesApart := by
  induction hregular with
  | object hnames hplain hvalues ih => exact .object hnames ih
  | _ => exact .plain fun fields heq => by cases heq

theorem Regular.consistent {value : Value} (hregular : value.Regular) : value.Consistent := by
  induction hregular with
  | scalar s => exact .scalar s
  | list items => exact .list items
  | set items => exact .set items
  | tags hkeys => exact .tags hkeys.consistent
  | map entries => exact .map entries
  | missing => exact .missing
  | object hnames hplain hvalues ih => exact .object ih

end Value

/-! ## Pairs the other way round -/

namespace Pair

def swap (pair : Pair) : Pair where
  name := pair.name
  desired := pair.observed
  observed := pair.desired

variable {desired observed : List Attribute}

theorem Between.swap {pair : Pair} (hbetween : Between desired observed pair) :
    Between observed desired pair.swap := by
  cases hbetween with
  | both hwanted hfound => exact .both hfound hwanted
  | desiredOnly hwanted hmissing => exact .observedOnly hmissing hwanted
  | observedOnly hmissing hfound => exact .desiredOnly hfound hmissing

theorem swap_mem_all (hobserved : (observed.map Prod.fst).Nodup) {pair : Pair}
    (hmem : pair ∈ all observed desired) : pair.swap ∈ all desired observed :=
  mem_all_of_between hobserved (between_of_mem_all hmem).swap

theorem Between.namesApart (hdesired : Value.NamesApart (.object (some desired)))
    (hobserved : Value.NamesApart (.object (some observed))) {pair : Pair}
    (hbetween : Between desired observed pair) :
    pair.desired.NamesApart ∧ pair.observed.NamesApart := by
  cases hbetween with
  | both hwanted hfound => exact ⟨hdesired.value_apart hwanted, hobserved.value_apart hfound⟩
  | desiredOnly hwanted hmissing =>
      exact ⟨hdesired.value_apart hwanted, Value.namesApart_absent _⟩
  | observedOnly hmissing hfound =>
      exact ⟨Value.namesApart_absent _, hobserved.value_apart hfound⟩

/-- The desired values of the pairs are those of the desired attributes, and absent ones. -/
theorem forall_desired_consistent_iff :
    (∀ pair ∈ all desired observed, pair.desired.Consistent) ↔
      ∀ field ∈ desired, field.2.Consistent := by
  simp only [all, List.mem_append, List.mem_map]
  constructor
  · intro hpairs field hfield
    exact hpairs _ (.inl ⟨field, hfield, rfl⟩)
  · rintro hfields pair (⟨field, hfield, rfl⟩ | ⟨field, hfield, rfl⟩)
    · exact hfields field hfield
    · exact Value.consistent_absent field.2

/-- A list against itself pairs every value with itself. -/
theorem all_self {fields : List Attribute} (hnames : (fields.map Prod.fst).Nodup) :
    all fields fields = fields.map fun field => ⟨field.1, field.2, field.2⟩ := by
  have hsurplus : surplus fields fields = [] := by
    rw [List.eq_nil_iff_forall_not_mem]
    intro field hmem
    obtain ⟨hfield, hmissing⟩ := mem_surplus_iff.1 hmem
    exact hmissing (List.mem_map_of_mem hfield)
  rw [all, hsurplus, List.map_nil, List.append_nil]
  refine List.map_congr_left fun field hfield => ?_
  rw [ofDesired, Named.lookup_of_mem hnames hfield, Option.getD_some]

end Pair

/-! ## Both ways round -/

namespace Value

theorem objects_agree_iff {desired observed : List Attribute} :
    (object (some desired)).disagrees (object (some observed)) = false ↔
      ∀ pair ∈ Pair.all desired observed, pair.desired.disagrees pair.observed = false := by
  rw [disagrees_objects, List.any_eq_false]
  simp only [Bool.not_eq_true, Pair.disagrees]

/-- A value agrees with itself unless it has two values under one key somewhere. -/
theorem NamesApart.agrees_self_iff {value : Value} (hapart : value.NamesApart) :
    value.disagrees value = false ↔ value.Consistent := by
  induction hapart with
  | @plain value hplain =>
      cases value with
      | scalar s => exact iff_of_true (by cases s <;> simp [disagrees, optionDisagrees]) (.scalar s)
      | list items =>
          refine iff_of_true ?_ (.list items)
          exact listDisagrees_eq_false_iff.2 (List.forall₂_same.2 fun s _ => s.same_self)
      | set items => exact iff_of_true (by simp [disagrees, setDisagrees]) (.set items)
      | tags items =>
          rw [tags_consistent_iff, ← Tag.settled_self_iff, disagrees, Bool.not_eq_false']
      | map entries => exact iff_of_true (bne_self_eq_false _) (.map entries)
      | object fields =>
          cases fields with
          | none => exact iff_of_true rfl .missing
          | some fields => exact absurd rfl (hplain fields)
  | @object fields hnames hvalues ih =>
      rw [objects_agree_iff, Pair.all_self hnames, object_consistent_iff, List.forall_mem_map]
      exact forall₂_congr ih

/-- What a value agrees with agrees with it in turn unless it has two values under one key
somewhere. -/
theorem agrees_back_iff {a b : Value} (ha : a.NamesApart) (hb : b.NamesApart)
    (hagree : a.disagrees b = false) : b.disagrees a = false ↔ b.Consistent := by
  induction a, b using paired_induction with
  | plain a b hplain =>
      cases sameKind_of_agreement hagree with
      | scalars s t =>
          rw [disagrees, optionDisagrees_comm Scalar.same_comm, ← disagrees]
          exact iff_of_true hagree (.scalar t)
      | lists items others =>
          rw [disagrees, listDisagrees_comm Scalar.same_comm, ← disagrees]
          exact iff_of_true hagree (.list others)
      | sets items others =>
          rw [disagrees, setDisagrees, Bool.or_comm, ← setDisagrees, ← disagrees]
          exact iff_of_true hagree (.set others)
      | tags items others =>
          rw [disagrees, Bool.not_eq_false', Tag.settled_iff_contents] at hagree ⊢
          rw [tags_consistent_iff]
          exact and_iff_left fun key => (hagree.2 key).symm
      | maps entries others =>
          rw [disagrees, bne_comm, ← disagrees]
          exact iff_of_true hagree (.map others)
      | objects fields others =>
          cases fields with
          | none =>
              cases others with
              | none => exact iff_of_true rfl .missing
              | some others => exact Bool.noConfusion hagree
          | some fields =>
              cases others with
              | none => exact Bool.noConfusion hagree
              | some others => exact absurd ⟨fields, others, rfl, rfl⟩ hplain
  | objects a b ih =>
      -- A pair of the one comparison is a pair of the other one with its values exchanged.
      have hback : ∀ pair ∈ Pair.all b a,
          (pair.desired.disagrees pair.observed = false ↔ pair.desired.Consistent) := by
        intro pair hpair
        have hswap := Pair.swap_mem_all hb.names_nodup hpair
        obtain ⟨hapart, hother⟩ := (Pair.between_of_mem_all hswap).namesApart ha hb
        exact ih pair.swap hswap hapart hother (objects_agree_iff.1 hagree pair.swap hswap)
      rw [objects_agree_iff, object_consistent_iff, ← Pair.forall_desired_consistent_iff]
      exact forall₂_congr hback

theorem disagrees_comm {a b : Value} (ha : a.NamesApart) (hb : b.NamesApart)
    (hfirst : a.Consistent) (hsecond : b.Consistent) : a.disagrees b = b.disagrees a := by
  rw [Bool.eq_iff_iff, ← not_iff_not, Bool.not_eq_true, Bool.not_eq_true]
  constructor
  · intro hagree
    exact (agrees_back_iff ha hb hagree).2 hsecond
  · intro hagree
    exact (agrees_back_iff hb ha hagree).2 hfirst

end Value

/-! ## Specs -/

namespace FieldType

variable {t : FieldType}

theorem value_namesApart (content : t.Content) : (t.value content).NamesApart := by
  by_cases hscaling : t = .scaling
  · subst hscaling
    cases content with
    | none => exact .plain fun fields heq => by cases heq
    | some range =>
        refine .object (by simp [Scaling.attributes]) fun field hmem => ?_
        rw [Scaling.attributes, List.mem_pair] at hmem
        rcases hmem with rfl | rfl
        · exact .plain fun fields heq => by cases heq
        · exact .plain fun fields heq => by cases heq
  · exact .plain fun fields => value_ne_object hscaling content (some fields)

theorem value_consistent (htags : t ≠ .tags) (content : t.Content) :
    (t.value content).Consistent := by
  cases t with
  | tags => exact absurd rfl htags
  | scaling =>
      cases content with
      | none => exact .missing
      | some range =>
          refine .object fun field hmem => ?_
          rw [Scaling.attributes, List.mem_pair] at hmem
          rcases hmem with rfl | rfl
          · exact .scalar _
          · exact .scalar _
  | texts => exact .set _
  | overrides => exact .map _
  | _ => exact .scalar _

theorem agrees_self (htags : t ≠ .tags) (content : t.Content) :
    (t.value content).disagrees (t.value content) = false :=
  (value_namesApart content).agrees_self_iff.2 (value_consistent htags content)

end FieldType

namespace Schema.Record

variable {S : Schema}

theorem attributes_namesApart (hlawful : S.Lawful) (hcompared : S.compared.Nodup)
    (spec : S.Record) : Value.NamesApart (.object (some (attributes spec))) := by
  have hnames : (attributes spec).map Prod.fst = S.compared.map S.label := by
    rw [attributes, attributesOf, List.map_map]
    rfl
  refine .object ?_ fun field hmem => ?_
  · rw [hnames]
    exact hcompared.map_on fun f _ g _ heq => hlawful.label_injective f g heq
  · obtain ⟨f, -, rfl⟩ := List.mem_map.1 hmem
    exact FieldType.value_namesApart (spec f)

/-- Where tags stand in one field only, nothing but this field can hold two values under one
key. -/
theorem attributes_consistent_iff {f : S.Field} (hcompared : f ∈ S.compared)
    (hothers : ∀ g, g ≠ f → S.type g ≠ .tags) (spec : S.Record) :
    Value.Consistent (.object (some (attributes spec))) ↔ (value spec f).Consistent := by
  rw [Value.object_consistent_iff, attributes, attributesOf, List.forall_mem_map]
  constructor
  · intro hall
    exact hall f hcompared
  · intro htags g hmem
    by_cases hsame : g = f
    · rw [hsame]
      exact htags
    · exact FieldType.value_consistent (hothers g hsame) (spec g)

end Schema.Record

theorem Changes.isEmpty_ofSpecs (desired observed : List Attribute) :
    (ofSpecs (some desired) (some observed)).isEmpty =
      !(Value.object (some desired)).disagrees (.object (some observed)) := by
  have hwalk : ofSpecs (some desired) (some observed) =
      withValue Path.root (.object (some desired)) (.object (some observed)) empty := by
    rw [ofSpecs, between_eq_overPairs, withValue_objects]
  rw [hwalk, isEmpty_withValue]
  rfl

namespace Kind

theorem compared_nodup (kind : Kind) : kind.schema.compared.Nodup := by
  cases kind with
  | dbCluster => decide
  | dbInstance => decide
  | parameterGroup scope => exact (by decide : parameterGroupSchema.compared.Nodup)
  | subnetGroup => decide
  | snapshot scope => exact (by decide : snapshotSchema.compared.Nodup)

/-- The tags of a spec are compared as they stand, in one field. -/
theorem exists_taggedField (kind : Kind) : ∃ f ∈ kind.schema.compared,
    (∀ g, g ≠ f → kind.schema.type g ≠ .tags) ∧
      ∀ spec : kind.Spec, Schema.Record.value spec f = .tags (kind.tags spec) := by
  cases kind with
  | dbCluster =>
      exact ⟨ClusterField.tags, by decide, fun g => by cases g <;> decide, fun _ => rfl⟩
  | dbInstance =>
      exact ⟨InstanceField.tags, by decide, fun g => by cases g <;> decide, fun _ => rfl⟩
  | parameterGroup scope =>
      exact ⟨ParameterGroupField.tags, (by decide : _ ∈ parameterGroupSchema.compared),
        fun g => by cases g <;> simp, fun _ => rfl⟩
  | subnetGroup =>
      exact ⟨SubnetGroupField.tags, by decide, fun g => by cases g <;> decide, fun _ => rfl⟩
  | snapshot scope =>
      exact ⟨SnapshotField.tags, (by decide : _ ∈ snapshotSchema.compared),
        fun g => by cases g <;> simp, fun _ => rfl⟩

theorem attributes_consistent_iff (kind : Kind) (spec : kind.Spec) :
    Value.Consistent (.object (some (Schema.Record.attributes spec))) ↔
      Tag.Consistent (kind.tags spec) := by
  obtain ⟨f, hcompared, hothers, hvalue⟩ := kind.exists_taggedField
  rw [Schema.Record.attributes_consistent_iff hcompared hothers, hvalue,
    Value.tags_consistent_iff]

/-- Nothing changes from a spec to itself unless it has two tags with one key and different
values. -/
theorem no_changes_to_itself_iff (kind : Kind) (spec : kind.Spec) :
    (Changes.ofSpecs (some (Schema.Record.attributes spec))
      (some (Schema.Record.attributes spec))).isEmpty = true ↔ Tag.Consistent (kind.tags spec) := by
  have hapart := Schema.Record.attributes_namesApart kind.schema_lawful kind.compared_nodup spec
  rw [← kind.attributes_consistent_iff, ← hapart.agrees_self_iff, Changes.isEmpty_ofSpecs,
    Bool.not_eq_true']

end Kind

namespace Value

/-- Which value is desired and which one is observed makes no difference to whether they agree, a
value agrees with itself, and nothing changes from a spec to itself, unless some list of tags has
two values under one key.  A value with such a list differs from itself and from everything that
agrees with it, and a spec with such tags changes to itself. -/
theorem agreement_sound_unless_doubled (a b : Value) (ha : a.NamesApart) (hb : b.NamesApart)
    (kind : Kind) (spec : kind.Spec) :
    (a.disagrees a = false ↔ a.Consistent) ∧
      (a.Consistent → b.Consistent → a.disagrees b = b.disagrees a) ∧
      (a.disagrees b = false → (b.disagrees a = false ↔ b.Consistent)) ∧
      ((Changes.ofSpecs (some (Schema.Record.attributes spec))
        (some (Schema.Record.attributes spec))).isEmpty = true ↔
          Tag.Consistent (kind.tags spec)) :=
  ⟨ha.agrees_self_iff, disagrees_comm ha hb, agrees_back_iff ha hb,
    kind.no_changes_to_itself_iff spec⟩

/-- Two lists of tags with the same contents, and a subnet group that has one of them. -/
theorem tags_agree_both_ways :
    (tags [⟨"k", none⟩, ⟨"l", some "1"⟩]).disagrees
          (tags [⟨"l", some "1"⟩, ⟨"k", some ""⟩]) =
        (tags [⟨"l", some "1"⟩, ⟨"k", some ""⟩]).disagrees
          (tags [⟨"k", none⟩, ⟨"l", some "1"⟩]) ∧
      (Changes.ofSpecs
        (some (Schema.Record.attributes (Schema.Record.set subnetGroupSchema.blank
          SubnetGroupField.tags [⟨"k", none⟩, ⟨"l", some "1"⟩])))
        (some (Schema.Record.attributes (Schema.Record.set subnetGroupSchema.blank
          SubnetGroupField.tags [⟨"k", none⟩, ⟨"l", some "1"⟩])))).isEmpty = true := by
  have hfirst : NamesApart (tags [⟨"k", none⟩, ⟨"l", some "1"⟩]) :=
    .plain fun fields heq => by cases heq
  have hsecond : NamesApart (tags [⟨"l", some "1"⟩, ⟨"k", some ""⟩]) :=
    .plain fun fields heq => by cases heq
  obtain ⟨-, hcomm, -, hspec⟩ := agreement_sound_unless_doubled _ _ hfirst hsecond .subnetGroup
    (Schema.Record.set subnetGroupSchema.blank SubnetGroupField.tags
      [⟨"k", none⟩, ⟨"l", some "1"⟩])
  refine ⟨hcomm (.tags (by decide)) (.tags (by decide)), hspec.2 ?_⟩
  decide +kernel

/-- Tags with two values under one key differ from themselves.  They also differ from the later
one of the two, which does not differ from them, and a spec that has them changes to itself.  The
same goes for two fields with one name, which no document holds. -/
theorem doubled_key_changes_to_itself :
    (tags [⟨"k", some "1"⟩, ⟨"k", some "2"⟩]).disagrees
        (tags [⟨"k", some "1"⟩, ⟨"k", some "2"⟩]) = true ∧
      (tags [⟨"k", some "1"⟩, ⟨"k", some "2"⟩]).disagrees (tags [⟨"k", some "2"⟩]) = true ∧
      (tags [⟨"k", some "2"⟩]).disagrees (tags [⟨"k", some "1"⟩, ⟨"k", some "2"⟩]) = false ∧
      (object (some [("n", .ofFlag (some true)), ("n", .ofFlag none)])).disagrees
        (object (some [("n", .ofFlag (some true)), ("n", .ofFlag none)])) = true ∧
      (Changes.ofSpecs
        (some (Schema.Record.attributes (Schema.Record.set subnetGroupSchema.blank
          SubnetGroupField.tags [⟨"k", some "1"⟩, ⟨"k", some "2"⟩])))
        (some (Schema.Record.attributes (Schema.Record.set subnetGroupSchema.blank
          SubnetGroupField.tags [⟨"k", some "1"⟩, ⟨"k", some "2"⟩])))).isEmpty = false := by
  refine ⟨rfl, rfl, rfl, rfl, ?_⟩
  decide +kernel

end Value
end DbSteward
