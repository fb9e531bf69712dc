import DbSteward.Proofs.Agreement
import DbSteward.Proofs.Table

/-!
# Canonical values

Among all values that agree there is one that stands for them: its sets are in order and without
repetition, its tags in the order of their keys with their contents written out, its fields in the
order of their names, and those that hold nothing are left out.  Its real numbers have one zero
and one pattern that is no number.  Lists stay in order, and an override without a value stays
apart from an empty one.

Two values of one shape agree exactly when they have the same canonical value, so that agreement
is an equivalence on them.  Without a common shape it is none: a field that is missing agrees with
the absent values of two kinds, and these do not agree with each other.
-/

namespace DbSteward

/-! ## Scalars -/

namespace Binary64

/-- The number itself, or the one that stands for all that are the same. -/
def canonical (x : Binary64) : Binary64 :=
  if x.isNaN then notANumber else if x.isZero then zero false else x

theorem isNaN_eq_false_of_isZero {x : Binary64} (hzero : x.isZero = true) : x.isNaN = false := by
  have hfraction : fractionBits = 4503599627370496 := rfl
  have hsign : signBit = 9223372036854775808 := rfl
  rw [isZero, beq_iff_eq, hsign] at hzero
  have hwidth : Nat.pow 2 11 = 2048 := rfl
  have hexponent : x.exponentField ≠ 2047 := by
    rw [exponentField, hfraction, hwidth]
    omega
  rw [isNaN, beq_eq_false_iff_ne.2 hexponent, Bool.false_and]

theorem isNaN_canonical (x : Binary64) : x.canonical.isNaN = x.isNaN := by
  unfold canonical
  split
  · rename_i hnan
    rw [hnan]
    decide
  · rename_i hnot
    split
    · rw [Bool.not_eq_true] at hnot
      rw [hnot]
      decide
    · rfl

theorem isZero_canonical (x : Binary64) : x.canonical.isZero = x.isZero := by
  unfold canonical
  split
  · rename_i hnan
    have hnot : x.isZero = false := by
      rw [Bool.eq_false_iff]
      intro hzero
      rw [isNaN_eq_false_of_isZero hzero] at hnan
      exact Bool.noConfusion hnan
    rw [hnot]
    decide
  · split
    · rename_i hzero
      rw [hzero]
      decide
    · rfl

theorem same_iff_canonical_eq {x y : Binary64} :
    x.same y = true ↔ x.canonical = y.canonical := by
  rw [same, Bool.or_eq_true, Bool.or_eq_true, Bool.and_eq_true, Bool.and_eq_true, beq_iff_eq]
  constructor
  · rintro ((rfl | ⟨hx, hy⟩) | ⟨hx, hy⟩)
    · rfl
    · rw [canonical, canonical, if_pos hx, if_pos hy]
    · rw [canonical, canonical, isNaN_eq_false_of_isZero hx, isNaN_eq_false_of_isZero hy, hx, hy]
      rfl
  · intro heq
    have hnan : x.isNaN = y.isNaN := by
      rw [← isNaN_canonical x, heq, isNaN_canonical]
    have hzero : x.isZero = y.isZero := by
      rw [← isZero_canonical x, heq, isZero_canonical]
    by_cases hx : x.isNaN = true
    · exact .inl (.inr ⟨hx, hnan ▸ hx⟩)
    · by_cases hxzero : x.isZero = true
      · exact .inr ⟨hxzero, hzero ▸ hxzero⟩
      · rw [canonical, canonical, ← hnan, ← hzero, if_neg hx, if_neg hx, if_neg hxzero,
          if_neg hxzero] at heq
        exact .inl (.inl heq)

theorem canonical_canonical (x : Binary64) : x.canonical.canonical = x.canonical := by
  rw [canonical, isNaN_canonical, isZero_canonical]
  unfold canonical
  split
  · rfl
  · split <;> rfl

end Binary64

namespace Scalar

def canonical : Scalar → Scalar
  | .real x => .real x.canonical
  | s => s

/-- Scalars of different types stay apart. -/
theorem same_iff_canonical_eq {a b : Scalar} : a.same b = true ↔ a.canonical = b.canonical := by
  cases a with
  | real x =>
      cases b with
      | real y =>
          rw [same, Binary64.same_iff_canonical_eq, canonical, canonical, Scalar.real.injEq]
      | _ => simp [same, canonical]
  | _ => cases b <;> simp [same, canonical]

theorem canonical_canonical (s : Scalar) : s.canonical.canonical = s.canonical := by
  cases s with
  | real x => exact congrArg Scalar.real x.canonical_canonical
  | _ => rfl

end Scalar

theorem optionDisagrees_eq_false_iff_map {a b : Option Scalar} :
    optionDisagrees Scalar.same a b = false ↔
      a.map Scalar.canonical = b.map Scalar.canonical := by
  cases a <;> cases b <;> simp [optionDisagrees, Scalar.same_iff_canonical_eq]

theorem listDisagrees_eq_false_iff_map {a b : List Scalar} :
    listDisagrees Scalar.same a b = false ↔
      a.map Scalar.canonical = b.map Scalar.canonical := by
  simp only [listDisagrees_eq_false_iff, Scalar.same_iff_canonical_eq]
  rw [← List.forall₂_eq_eq_eq, List.forall₂_map_left_iff, List.forall₂_map_right_iff]

/-! ## Sets -/

namespace Text

/-- The items of a list in ascending order, each of them once. -/
def distinct (items : List String) : List String :=
  (Table.ofList (items.map fun item => (item, ()))).entries.map Prod.fst

theorem mem_distinct_iff {items : List String} {item : String} :
    item ∈ distinct items ↔ item ∈ items := by
  rw [distinct, Table.mem_keys_ofList_iff, List.map_map]
  simp

theorem distinct_eq_iff {left right : List String} :
    distinct left = distinct right ↔ SameItems left right := by
  constructor
  · intro heq item
    rw [← mem_distinct_iff, heq, mem_distinct_iff]
  · intro hsame
    have hmarks : ∀ (items : List String) (item : String), (item, ()) ∈
        (Table.ofList (items.map fun item => (item, ()))).entries ↔ item ∈ items := by
      intro items item
      rw [← mem_distinct_iff, distinct]
      constructor
      · exact List.mem_map_of_mem
      · intro hmem
        obtain ⟨⟨_, _⟩, hentry, rfl⟩ := List.mem_map.1 hmem
        exact hentry
    have htables : Table.ofList (left.map fun item => (item, ())) =
        Table.ofList (right.map fun item => (item, ())) := by
      refine Table.ext_get? fun item => Option.ext fun mark => ?_
      rw [Table.get?_eq_some_iff, Table.get?_eq_some_iff, hmarks, hmarks]
      exact hsame item
    rw [distinct, distinct, htables]

theorem distinct_distinct (items : List String) : distinct (distinct items) = distinct items :=
  distinct_eq_iff.2 fun _ => mem_distinct_iff

theorem distinct_eq_nil_iff {items : List String} : distinct items = [] ↔ items = [] := by
  simp only [List.eq_nil_iff_forall_not_mem, mem_distinct_iff]

end Text

/-! ## Tags -/

namespace Tag

/-- What a list of tags says of every key. -/
def contents (tags : List Tag) : Table String :=
  Table.ofList (tags.map fun tag => (tag.key, tag.content))

/-- The tags in the order of their keys, no key twice and no value absent. -/
def canonical (tags : List Tag) : List Tag :=
  (contents tags).entries.map fun entry => ⟨entry.1, some entry.2⟩

theorem get?_contents (tags : List Tag) (key : String) :
    (contents tags).get? key = (last? tags key).map content :=
  Table.get?_ofList_map Tag.key content tags key

theorem canonical_eq_iff {left right : List Tag} :
    canonical left = canonical right ↔
      ∀ key, (last? left key).map content = (last? right key).map content := by
  have hinjective : Function.Injective fun entry : String × String =>
      (⟨entry.1, some entry.2⟩ : Tag) := by
    rintro ⟨key, value⟩ ⟨other, text⟩ heq
    simpa using heq
  rw [canonical, canonical, (List.map_injective_iff.2 hinjective).eq_iff]
  constructor
  · intro heq key
    rw [← get?_contents, Table.ext_entries heq, get?_contents]
  · intro hsame
    have htables : contents left = contents right := by
      refine Table.ext_get? fun key => ?_
      rw [get?_contents, get?_contents, hsame]
    rw [htables]

theorem settled_iff_canonical_eq {desired observed : List Tag} (hdesired : Consistent desired) :
    settled desired observed = true ↔ canonical desired = canonical observed := by
  rw [settled_iff_contents, canonical_eq_iff]
  exact and_iff_right hdesired

theorem distinctKeys_canonical (tags : List Tag) : DistinctKeys (canonical tags) := by
  have hkeys : (canonical tags).map key = (contents tags).entries.map Prod.fst := by
    rw [canonical, List.map_map]
    rfl
  rw [DistinctKeys, hkeys]
  exact (contents tags).nodup_keys

theorem canonical_canonical (tags : List Tag) : canonical (canonical tags) = canonical tags := by
  have hcontents : contents (canonical tags) = contents tags := by
    have hentries : (canonical tags).map (fun tag => (tag.key, tag.content)) =
        (contents tags).entries := by
      rw [canonical, List.map_map]
      exact List.map_id _
    rw [contents, hentries, Table.ofList_entries]
  rw [canonical, hcontents, canonical]

theorem canonical_eq_nil_iff {tags : List Tag} : canonical tags = [] ↔ tags = [] := by
  rw [canonical, List.map_eq_nil_iff, ← List.map_eq_nil_iff (f := Prod.fst),
    List.eq_nil_iff_forall_not_mem]
  simp only [contents, Table.mem_keys_ofList_iff]
  rw [← List.eq_nil_iff_forall_not_mem, List.map_eq_nil_iff, List.map_eq_nil_iff]

end Tag

/-! ## Values -/

namespace Value

mutual
/-- The value that stands for all values of its shape that agree with it. -/
def canonical : Value → Value
  | .scalar s => .scalar (s.map Scalar.canonical)
  | .list items => .list (items.map Scalar.canonical)
  | .set items => .set (Text.distinct items)
  | .tags items => .tags (Tag.canonical items)
  | .map entries => .map entries
  | .object none => .object none
  | .object (some fields) => .object (some (canonicalFields fields).entries)

/-- The canonical values of the fields that hold something, by name. -/
def canonicalFields : List Attribute → Table Value
  | [] => .empty
  | (name, value) :: rest =>
      if value.isPresent then (canonicalFields rest).insert name value.canonical
      else canonicalFields rest
end

/-- The canonical value of a field, if it holds anything. -/
def held? (value : Value) : Option Value :=
  if value.isPresent then some value.canonical else none

theorem held?_eq_some_iff {value held : Value} :
    value.held? = some held ↔ value.isPresent = true ∧ value.canonical = held := by
  rw [held?, Option.ite_none_right_eq_some, Option.some.injEq]

theorem held?_eq_none_iff {value : Value} : value.held? = none ↔ value.isPresent = false := by
  rw [held?, ite_eq_right_iff, Bool.eq_false_iff]
  simp

theorem isPresent_canonical (value : Value) : value.canonical.isPresent = value.isPresent := by
  cases value with
  | scalar s => cases s <;> simp [canonical, isPresent]
  | list items => cases items <;> simp [canonical, isPresent]
  | set items =>
      rw [canonical, isPresent, isPresent, Bool.eq_iff_iff, Bool.not_eq_true', Bool.not_eq_true',
        List.isEmpty_eq_false_iff, List.isEmpty_eq_false_iff, Ne, Text.distinct_eq_nil_iff]
  | tags items =>
      rw [canonical, isPresent, isPresent, Bool.eq_iff_iff, Bool.not_eq_true', Bool.not_eq_true',
        List.isEmpty_eq_false_iff, List.isEmpty_eq_false_iff, Ne, Tag.canonical_eq_nil_iff]
  | map entries => rw [canonical]
  | object fields => cases fields <;> simp [canonical, isPresent]

theorem eq_absent_of_not_present {value : Value} (hnot : value.isPresent = false) :
    value = value.absent := by
  cases value with
  | scalar s => simpa [isPresent, absent] using hnot
  | list items => simpa [isPresent, absent] using hnot
  | set items => simpa [isPresent, absent] using hnot
  | tags items => simpa [isPresent, absent] using hnot
  | map entries =>
      rw [isPresent, Bool.not_eq_false', Table.isEmpty_iff] at hnot
      rw [hnot, absent]
  | object fields => simpa [isPresent, absent] using hnot

theorem held?_absent (value : Value) : value.absent.held? = none := by
  cases value <;> rfl

theorem get?_canonicalFields {fields : List Attribute} (hnames : (fields.map Prod.fst).Nodup)
    (name : String) : (canonicalFields fields).get? name = (fields.lookup name).bind held? := by
  induction fields with
  | nil => simp [canonicalFields]
  | cons field rest ih =>
      obtain ⟨label, value⟩ := field
      obtain ⟨hfresh, hrest⟩ := List.nodup_cons.1 hnames
      rw [canonicalFields, Named.lookup_cons]
      by_cases hname : name = label
      · have hmissing : rest.lookup name = none := Named.lookup_eq_none_iff.2 (hname ▸ hfresh)
        rw [if_pos hname, Option.bind_some, held?]
        split
        · rw [Table.get?_insert, if_pos hname]
        · rw [ih hrest, hmissing, Option.bind_none]
      · rw [if_neg hname, ← ih hrest]
        split
        · rw [Table.get?_insert, if_neg hname]
        · rfl

/-! ## Values of one shape -/

/-- How a value is compared, and for an object how the fields of every name are. -/
inductive Shape where
  | scalar
  | list
  | set
  | tags
  | map
  | object (fields : String → Shape)

/-- The value has a shape, no name comes twice in an object, and no list of tags has two values
under one key. -/
inductive Fits : Shape → Value → Prop where
  | scalar (s : Option Scalar) : Fits .scalar (.scalar s)
  | list (items : List Scalar) : Fits .list (.list items)
  | set (items : List String) : Fits .set (.set items)
  | tags {items : List Tag} (hitems : Tag.Consistent items) : Fits .tags (.tags items)
  | map (entries : Overrides) : Fits .map (.map entries)
  | missing (shapes : String → Shape) : Fits (.object shapes) (.object none)
  | object {shapes : String → Shape} {fields : List Attribute}
      (hnames : (fields.map Prod.fst).Nodup)
      (hvalues : ∀ field ∈ fields, Fits (shapes field.1) field.2) :
      Fits (.object shapes) (.object (some fields))

namespace Fits

variable {shape : Shape} {a b value : Value}

theorem absent (hfits : Fits shape value) : Fits shape value.absent := by
  cases hfits with
  | scalar s => exact .scalar none
  | list items => exact .list []
  | set items => exact .set []
  | tags hitems => exact .tags fun a ha => absurd ha List.not_mem_nil
  | map entries => exact .map Table.empty
  | missing shapes => exact .missing shapes
  | object hnames hvalues => exact .missing _

theorem absent_eq (ha : Fits shape a) (hb : Fits shape b) : a.absent = b.absent := by
  cases ha <;> cases hb <;> rfl

/-- Canonical values of one shape are told apart by what they hold. -/
theorem canonical_eq_iff_held (ha : Fits shape a) (hb : Fits shape b) :
    a.canonical = b.canonical ↔ a.held? = b.held? := by
  constructor
  · intro heq
    have hpresence : a.isPresent = b.isPresent := by
      rw [← isPresent_canonical a, heq, isPresent_canonical]
    rw [held?, held?, hpresence, heq]
  · intro heq
    cases hpresence : a.isPresent with
    | true =>
        have hheld : b.held? = some a.canonical :=
          heq.symm.trans (held?_eq_some_iff.2 ⟨hpresence, rfl⟩)
        exact (held?_eq_some_iff.1 hheld).2.symm
    | false =>
        have hnone : b.held? = none := heq.symm.trans (held?_eq_none_iff.2 hpresence)
        have hother := held?_eq_none_iff.1 hnone
        rw [eq_absent_of_not_present hpresence, ha.absent_eq hb, ← eq_absent_of_not_present hother]

section Object

variable {shapes : String → Shape} {fields : List Attribute}
  (hfits : Fits (.object shapes) (.object (some fields)))

include hfits

theorem names_nodup : (fields.map Prod.fst).Nodup := by
  cases hfits with
  | object hnames hvalues => exact hnames

theorem value_fits {field : Attribute} (hmem : field ∈ fields) :
    Fits (shapes field.1) field.2 := by
  cases hfits with
  | object hnames hvalues => exact hvalues field hmem

end Object

section Pair

variable {shapes : String → Shape} {desired observed : List Attribute}
  (hdesired : Fits (.object shapes) (.object (some desired)))
  (hobserved : Fits (.object shapes) (.object (some observed)))

include hdesired hobserved

theorem of_between {pair : Pair} (hbetween : Pair.Between desired observed pair) :
    Fits (shapes pair.name) pair.desired ∧ Fits (shapes pair.name) pair.observed := by
  cases hbetween with
  | both hwanted hfound => exact ⟨hdesired.value_fits hwanted, hobserved.value_fits hfound⟩
  | desiredOnly hwanted hmissing =>
      exact ⟨hdesired.value_fits hwanted, (hdesired.value_fits hwanted).absent⟩
  | observedOnly hmissing hfound =>
      exact ⟨(hobserved.value_fits hfound).absent, hobserved.value_fits hfound⟩

end Pair

end Fits

end Value

/-! ## Fields by name -/

namespace Pair

variable {desired observed : List Attribute} {pair : Pair}

/-- The desired value of a pair holds what is desired under its name. -/
theorem Between.held?_desired (hdesired : (desired.map Prod.fst).Nodup)
    (hbetween : Between desired observed pair) :
    (desired.lookup pair.name).bind Value.held? = pair.desired.held? := by
  cases hbetween with
  | both hwanted hfound => rw [Named.lookup_of_mem hdesired hwanted, Option.bind_some]
  | desiredOnly hwanted hmissing => rw [Named.lookup_of_mem hdesired hwanted, Option.bind_some]
  | observedOnly hmissing hfound =>
      rw [Named.lookup_eq_none_iff.2 hmissing, Option.bind_none, Value.held?_absent]

theorem Between.held?_observed (hobserved : (observed.map Prod.fst).Nodup)
    (hbetween : Between desired observed pair) :
    (observed.lookup pair.name).bind Value.held? = pair.observed.held? :=
  hbetween.swap.held?_desired hobserved

/-- The values of all pairs hold the same exactly when both lists hold the same under every
name. -/
theorem forall_held_iff (hdesired : (desired.map Prod.fst).Nodup)
    (hobserved : (observed.map Prod.fst).Nodup) :
    (∀ pair ∈ all desired observed, pair.desired.held? = pair.observed.held?) ↔
      ∀ name, (desired.lookup name).bind Value.held? =
        (observed.lookup name).bind Value.held? := by
  constructor
  · intro hpairs name
    by_cases hname : name ∈ (all desired observed).map Pair.name
    · obtain ⟨pair, hpair, rfl⟩ := List.mem_map.1 hname
      have hbetween := between_of_mem_all hpair
      rw [hbetween.held?_desired hdesired, hbetween.held?_observed hobserved]
      exact hpairs pair hpair
    · rw [names_all, names, List.mem_append, not_or] at hname
      obtain ⟨hwanted, hfound⟩ := hname
      have hmissing : name ∉ observed.map Prod.fst := fun hmem =>
        hfound (List.mem_filter.2 ⟨hmem, decide_eq_true hwanted⟩)
      rw [Named.lookup_eq_none_iff.2 hwanted, Named.lookup_eq_none_iff.2 hmissing]
  · intro hnames pair hpair
    have hbetween := between_of_mem_all hpair
    rw [← hbetween.held?_desired hdesired, ← hbetween.held?_observed hobserved]
    exact hnames pair.name

end Pair

/-! ## Agreement -/

namespace Value

variable {shape : Shape}

theorem canonical_objects_eq_iff {a b : List Attribute} (ha : (a.map Prod.fst).Nodup)
    (hb : (b.map Prod.fst).Nodup) :
    (object (some a)).canonical = (object (some b)).canonical ↔
      ∀ name, (a.lookup name).bind held? = (b.lookup name).bind held? := by
  rw [canonical, canonical, object.injEq, Option.some.injEq]
  constructor
  · intro heq name
    rw [← get?_canonicalFields ha, ← get?_canonicalFields hb, Table.ext_entries heq]
  · intro hnames
    have htables : canonicalFields a = canonicalFields b := by
      refine Table.ext_get? fun name => ?_
      rw [get?_canonicalFields ha, get?_canonicalFields hb, hnames]
    rw [htables]

theorem Fits.exists_shapes {fields : List Attribute} (hfits : Fits shape (.object (some fields))) :
    ∃ shapes, shape = .object shapes := by
  cases hfits with
  | object hnames hvalues => exact ⟨_, rfl⟩

theorem Fits.agrees_iff {a b : Value} (ha : Fits shape a) (hb : Fits shape b) :
    a.disagrees b = false ↔ a.canonical = b.canonical := by
  induction a, b using paired_induction generalizing shape with
  | plain a b hplain =>
      cases ha with
      | scalar s =>
          cases hb with
          | scalar t =>
              rw [disagrees, optionDisagrees_eq_false_iff_map, canonical, canonical,
                scalar.injEq]
      | list items =>
          cases hb with
          | list others =>
              rw [disagrees, listDisagrees_eq_false_iff_map, canonical, canonical, list.injEq]
      | set items =>
          cases hb with
          | set others =>
              rw [disagrees, ← Bool.not_eq_true, setDisagrees_iff, not_not, canonical, canonical,
                set.injEq, Text.distinct_eq_iff]
      | tags hitems =>
          cases hb with
          | tags hothers =>
              rw [disagrees, Bool.not_eq_false', Tag.settled_iff_canonical_eq hitems, canonical,
                canonical, tags.injEq]
      | map entries =>
          cases hb with
          | map others => rw [disagrees, bne_eq_false_iff_eq, canonical, canonical, map.injEq]
      | missing shapes =>
          cases hb with
          | missing shapes => exact iff_of_true rfl rfl
          | object hnames hvalues => simp [disagrees, canonical]
      | @object shapes fields hnames hvalues =>
          cases hb with
          | missing shapes => simp [disagrees, canonical]
          | @object shapes others hnames hvalues =>
              exact absurd ⟨fields, others, rfl, rfl⟩ hplain
  | objects a b ih =>
      obtain ⟨shapes, rfl⟩ := ha.exists_shapes
      have hpairs : ∀ pair ∈ Pair.all a b,
          (pair.desired.disagrees pair.observed = false ↔
            pair.desired.held? = pair.observed.held?) := by
        intro pair hpair
        obtain ⟨hwanted, hfound⟩ := ha.of_between hb (Pair.between_of_mem_all hpair)
        rw [ih pair hpair hwanted hfound, hwanted.canonical_eq_iff_held hfound]
      rw [objects_agree_iff, canonical_objects_eq_iff ha.names_nodup hb.names_nodup,
        ← Pair.forall_held_iff ha.names_nodup hb.names_nodup]
      exact forall₂_congr hpairs

/-! ## Canonical values are canonical -/

theorem Fits.canonical {value : Value} (hfits : Fits shape value) :
    Fits shape value.canonical := by
  induction hfits with
  | scalar s => exact .scalar _
  | list items => exact .list _
  | set items => exact .set _
  | tags hitems => exact .tags (Tag.distinctKeys_canonical _).consistent
  | map entries => exact .map entries
  | missing shapes => exact .missing shapes
  | @object shapes fields hnames hvalues ih =>
      refine .object (canonicalFields fields).nodup_keys fun field hmem => ?_
      have hget : (canonicalFields fields).get? field.1 = some field.2 :=
        Table.get?_eq_some_iff.2 hmem
      rw [get?_canonicalFields hnames] at hget
      obtain ⟨value, hlookup, hheld⟩ := Option.bind_eq_some_iff.1 hget
      rw [← (held?_eq_some_iff.1 hheld).2]
      exact ih (field.1, value) (Named.mem_of_lookup hlookup)

theorem Fits.canonical_canonical {value : Value} (hfits : Fits shape value) :
    value.canonical.canonical = value.canonical := by
  induction hfits with
  | scalar s => cases s <;> simp [Value.canonical, Scalar.canonical_canonical]
  | list items => simp [Value.canonical, Scalar.canonical_canonical]
  | set items => rw [Value.canonical, Value.canonical, Text.distinct_distinct]
  | @tags items hitems => rw [Value.canonical, Value.canonical, Tag.canonical_canonical]
  | map entries => rw [Value.canonical, Value.canonical]
  | missing shapes => rw [Value.canonical, Value.canonical]
  | @object shapes fields hnames hvalues ih =>
      have hfields : canonicalFields (canonicalFields fields).entries = canonicalFields fields := by
        refine Table.ext_get? fun name => ?_
        rw [get?_canonicalFields (canonicalFields fields).nodup_keys, ← Table.get?,
          get?_canonicalFields hnames]
        cases hlookup : fields.lookup name with
        | none => rfl
        | some value =>
            have hsame := ih (name, value) (Named.mem_of_lookup hlookup)
            rw [Option.bind_some]
            cases hpresent : value.isPresent with
            | true => simp [held?, hpresent, isPresent_canonical, hsame]
            | false => simp [held?, hpresent]
      rw [Value.canonical, Value.canonical, hfields]

/-- Values of one shape agree exactly when they have the same canonical value, which is a value
of that shape and its own canonical value.  So agreement is an equivalence on the values of a
shape, and the canonical value stands for all that agree. -/
theorem agreement_iff_same_canonical (shape : Shape) :
    (∀ a b, Fits shape a → Fits shape b →
        (a.disagrees b = false ↔ a.canonical = b.canonical)) ∧
      (∀ value, Fits shape value →
        Fits shape value.canonical ∧ value.canonical.canonical = value.canonical) ∧
      Equivalence fun a b : {value : Value // Fits shape value} =>
        a.1.disagrees b.1 = false := by
  refine ⟨fun a b ha hb => ha.agrees_iff hb,
    fun value hfits => ⟨hfits.canonical, hfits.canonical_canonical⟩, ?_, ?_, ?_⟩
  · intro a
    exact (a.2.agrees_iff a.2).2 rfl
  · intro a b hagree
    exact (b.2.agrees_iff a.2).2 ((a.2.agrees_iff b.2).1 hagree).symm
  · intro a b c hfirst hsecond
    have hcanonical := ((a.2.agrees_iff b.2).1 hfirst).trans ((b.2.agrees_iff c.2).1 hsecond)
    exact (a.2.agrees_iff c.2).2 hcanonical

theorem rewritten_fields_same_canonical :
    let shape : Shape := .object fun
      | "Logs" => .set
      | "Tags" => .tags
      | _ => .object fun _ => .scalar
    let first := object (some [
      ("Logs", .set ["error", "audit", "error"]),
      ("Tags", .tags [⟨"team", none⟩, ⟨"zone", some "a"⟩]),
      ("Scaling", .object (some [("Max", .ofReal (some .notANumber)),
        ("Min", .ofReal (some (.zero true))), ("Pause", .scalar none)]))])
    let second := object (some [
      ("Scaling", .object (some [("Min", .ofReal (some (.zero false))),
        ("Max", .ofReal (some (.negate .notANumber)))])),
      ("Logs", .set ["audit", "error"]),
      ("Endpoint", .object none),
      ("Tags", .tags [⟨"zone", some "a"⟩, ⟨"team", some ""⟩])])
    Fits shape first ∧ Fits shape second ∧ first.canonical = second.canonical := by
  intro shape first second
  have hscaling : ∀ fields : List Attribute, (fields.map Prod.fst).Nodup →
      (∀ field ∈ fields, ∃ s, field.2 = .scalar s) →
      Fits (.object fun _ => .scalar) (.object (some fields)) := by
    intro fields hnames hscalars
    refine .object hnames fun field hmem => ?_
    obtain ⟨s, hvalue⟩ := hscalars field hmem
    rw [hvalue]
    exact .scalar s
  have hfirst : Fits shape first := by
    refine .object (by decide) (List.forall_mem_cons.2 ⟨.set _, List.forall_mem_cons.2
      ⟨.tags (by decide), List.forall_mem_singleton.2 (hscaling _ (by decide) ?_)⟩⟩)
    simp [ofReal]
  have hsecond : Fits shape second := by
    refine .object (by decide) (List.forall_mem_cons.2 ⟨hscaling _ (by decide) ?_,
      List.forall_mem_cons.2 ⟨.set _, List.forall_mem_cons.2
        ⟨.missing _, List.forall_mem_singleton.2 (.tags (by decide))⟩⟩⟩)
    simp [ofReal]
  exact ⟨hfirst, hsecond,
    ((agreement_iff_same_canonical shape).1 first second hfirst hsecond).1 (by decide +kernel)⟩

-- Without a common shape a missing field agrees with the absent values of two kinds.
example :
    (object (some [("n", .list [])])).disagrees (object (some [])) = false ∧
      (object (some [])).disagrees (object (some [("n", .scalar none)])) = false ∧
      (object (some [("n", .list [])])).disagrees (object (some [("n", .scalar none)])) = true :=
  ⟨rfl, rfl, rfl⟩

end Value
end DbSteward
