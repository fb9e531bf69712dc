import DbSteward.Proofs.Text
import DbSteward.Proofs.Value
import DbSteward.Change.Changes
import Mathlib.Data.List.Nodup

/-!
# Changes field by field

Changes are collected by walking over fields and noting each one whose values disagree.
As long as no two fields share a label and no label contains a point, every field
contributes its own differences at the end, whatever was noted before.  Queries about the
path of a field are then answered by that field alone.
-/

namespace DbSteward
namespace Changes

/-- Nothing has been noted at the path or below it. -/
def FreshAt (changes : Changes) (path : String) : Prop :=
  ∀ d ∈ changes.differences, Path.covers path d.path = false

/-- The differences of a desired from an observed value at a path. -/
def differencesAt (path : String) (desired observed : Value) : List Difference :=
  (withValue path desired observed empty).differences

def append (changes : Changes) (more : List Difference) : Changes :=
  ⟨changes.differences ++ more⟩

@[simp] theorem append_nil (changes : Changes) : changes.append [] = changes := by
  simp [append]

@[simp] theorem append_append (changes : Changes) (first second : List Difference) :
    (changes.append first).append second = changes.append (first ++ second) := by
  simp [append]

theorem place_of_same {d e : Difference} (hsame : e.path = d.path) (rest : List Difference) :
    place d (e :: rest) = d :: rest := by
  simp [place, hsame]

theorem place_of_other {d e : Difference} (hother : e.path ≠ d.path) (rest : List Difference) :
    place d (e :: rest) = e :: place d rest := by
  simp [place, hother]

theorem place_eq_append {d : Difference} {differences : List Difference}
    (hfresh : ∀ e ∈ differences, e.path ≠ d.path) : place d differences = differences ++ [d] := by
  induction differences with
  | nil => rfl
  | cons e rest ih =>
      have hrest := ih fun other hmem => hfresh other (List.mem_cons_of_mem _ hmem)
      rw [place_of_other (hfresh e (List.mem_cons_self ..)), hrest, List.cons_append]

/-- The differences of two values that are not both objects. -/
def plainDifferencesAt (path : String) (desired observed : Value) : List Difference :=
  if desired.disagrees observed then [⟨path, observed, desired⟩] else []

theorem note_eq_append {changes : Changes} {path : String}
    (hfresh : ∀ d ∈ changes.differences, d.path ≠ path) (observed desired : Value) :
    changes.note path observed desired =
      changes.append (plainDifferencesAt path desired observed) := by
  unfold note plainDifferencesAt
  split
  · rw [record, place_eq_append hfresh]
    rfl
  · simp

theorem path_ne_of_not_covers {top path : String} (hnot : Path.covers top path = false) :
    path ≠ top := by
  rintro rfl
  have hself : Path.covers path path = true := Path.covers_iff_segments.2 (List.prefix_refl _)
  rw [hself] at hnot
  exact Bool.noConfusion hnot

theorem FreshAt.ne {changes : Changes} {path : String} (hfresh : changes.FreshAt path)
    {d : Difference} (hmem : d ∈ changes.differences) : d.path ≠ path :=
  path_ne_of_not_covers (hfresh d hmem)

theorem covers_below (path name : String) : Path.covers path (Path.below path name) = true := by
  rw [Path.covers_iff_segments, Path.segments_below]
  exact List.prefix_append _ _

theorem covers_trans {top middle path : String} (hfirst : Path.covers top middle = true)
    (hsecond : Path.covers middle path = true) : Path.covers top path = true := by
  rw [Path.covers_iff_segments] at hfirst hsecond ⊢
  exact hfirst.trans hsecond

theorem FreshAt.below {changes : Changes} {path : String} (hfresh : changes.FreshAt path)
    (name : String) : changes.FreshAt (Path.below path name) := by
  intro d hmem
  rw [Bool.eq_false_iff]
  intro hcovers
  have htop := covers_trans (covers_below path name) hcovers
  rw [hfresh d hmem] at htop
  exact Bool.noConfusion htop

theorem freshAt_empty (path : String) : empty.FreshAt path := by
  simp [FreshAt, empty]

end Changes

/-- A pair of values that a field can have on the two sides: an object on both sides is a
capacity range. -/
inductive Value.Paired : Value → Value → Prop where
  | plain {desired observed : Value}
      (hplain : ∀ a b, ¬ (desired = .object (some a) ∧ observed = .object (some b))) :
      Paired desired observed
  | scaling (desired observed : Scaling) :
      Paired (.object (some desired.attributes)) (.object (some observed.attributes))

theorem FieldType.paired {t : FieldType} (desired observed : t.Content) :
    Value.Paired (t.value desired) (t.value observed) := by
  cases t with
  | scaling =>
      cases desired with
      | none => exact .plain fun a b h => by simp [value] at h
      | some left =>
          cases observed with
          | none => exact .plain fun a b h => by simp [value] at h
          | some right => exact .scaling left right
  | _ => exact .plain fun a b h => by simp [value, Value.ofText, Value.ofInteger,
      Value.ofFlag] at h

namespace Changes

theorem withValue_of_plain (desired observed : Value)
    (hplain : ∀ a b, ¬ (desired = .object (some a) ∧ observed = .object (some b)))
    (path : String) (changes : Changes) :
    changes.note path observed desired = withValue path desired observed changes := by
  unfold withValue
  split
  · exact absurd ⟨rfl, rfl⟩ (hplain _ _)
  · rfl

theorem withValue_scaling (path : String) (desired observed : Scaling) (changes : Changes) :
    withValue path (.object (some desired.attributes)) (.object (some observed.attributes))
        changes =
      (changes.note (Path.below path "MaxCapacity") (.ofReal observed.most)
          (.ofReal desired.most)).note
        (Path.below path "MinCapacity") (.ofReal observed.least) (.ofReal desired.least) := by
  have hmost := withValue_of_plain (.ofReal desired.most) (.ofReal observed.most)
    (by simp [Value.ofReal])
  have hleast := withValue_of_plain (.ofReal desired.least) (.ofReal observed.least)
    (by simp [Value.ofReal])
  simp only [withValue, Scaling.attributes, withMatched, withSurplus]
  simp [List.lookup_cons, hmost, hleast]

/-! ## What one field contributes -/

theorem differencesAt_plain {desired observed : Value}
    (hplain : ∀ a b, ¬ (desired = .object (some a) ∧ observed = .object (some b)))
    (path : String) :
    differencesAt path desired observed = plainDifferencesAt path desired observed := by
  rw [differencesAt, ← withValue_of_plain _ _ hplain, note_eq_append (by simp [empty])]
  rfl

theorem note_note_eq_append {changes : Changes} {first second : String}
    (hfirst : ∀ d ∈ changes.differences, d.path ≠ first)
    (hsecond : ∀ d ∈ changes.differences, d.path ≠ second) (hne : first ≠ second)
    (a b c d : Value) :
    (changes.note first a b).note second c d =
      changes.append (plainDifferencesAt first b a ++ plainDifferencesAt second d c) := by
  rw [note_eq_append hfirst, note_eq_append, append_append]
  intro e hmem
  rcases List.mem_append.1 hmem with hold | hnew
  · exact hsecond e hold
  · unfold plainDifferencesAt at hnew
    split at hnew
    · rw [List.mem_singleton.1 hnew]
      exact hne
    · simp at hnew

private theorem below_bounds_ne (path : String) :
    Path.below path "MaxCapacity" ≠ Path.below path "MinCapacity" := by
  intro heq
  have hsegments := congrArg Path.segments heq
  rw [Path.segments_below, Path.segments_below] at hsegments
  exact absurd (List.append_cancel_left hsegments) (by decide)

theorem differencesAt_scaling (path : String) (desired observed : Scaling) :
    differencesAt path (.object (some desired.attributes)) (.object (some observed.attributes)) =
      plainDifferencesAt (Path.below path "MaxCapacity") (.ofReal desired.most)
          (.ofReal observed.most) ++
        plainDifferencesAt (Path.below path "MinCapacity") (.ofReal desired.least)
          (.ofReal observed.least) := by
  rw [differencesAt, withValue_scaling,
    note_note_eq_append (by simp [empty]) (by simp [empty]) (below_bounds_ne path)]
  rfl

/-- Where nothing has been noted yet, a field adds its own differences at the end. -/
theorem withValue_eq_append {changes : Changes} {path : String} {desired observed : Value}
    (hpaired : Value.Paired desired observed) (hfresh : changes.FreshAt path) :
    withValue path desired observed changes =
      changes.append (differencesAt path desired observed) := by
  cases hpaired with
  | plain hplain =>
      rw [differencesAt_plain hplain, ← withValue_of_plain _ _ hplain,
        note_eq_append fun d hmem => hfresh.ne hmem]
  | scaling desired observed =>
      rw [differencesAt_scaling, withValue_scaling]
      exact note_note_eq_append (fun d hmem => (hfresh.below _).ne hmem)
        (fun d hmem => (hfresh.below _).ne hmem) (below_bounds_ne path) ..

theorem mem_plainDifferencesAt {path : String} {desired observed : Value} {d : Difference} :
    d ∈ plainDifferencesAt path desired observed ↔
      desired.disagrees observed = true ∧ d = ⟨path, observed, desired⟩ := by
  unfold plainDifferencesAt
  split <;> simp_all

theorem plainDifferencesAt_eq_nil {path : String} {desired observed : Value} :
    plainDifferencesAt path desired observed = [] ↔ desired.disagrees observed = false := by
  unfold plainDifferencesAt
  split <;> simp_all

theorem covers_of_mem_differencesAt {path : String} {desired observed : Value}
    (hpaired : Value.Paired desired observed) {d : Difference}
    (hmem : d ∈ differencesAt path desired observed) : Path.covers path d.path = true := by
  cases hpaired with
  | plain hplain =>
      rw [differencesAt_plain hplain, mem_plainDifferencesAt] at hmem
      rw [hmem.2]
      exact Path.covers_iff_segments.2 (List.prefix_refl _)
  | scaling desired observed =>
      rw [differencesAt_scaling, List.mem_append, mem_plainDifferencesAt,
        mem_plainDifferencesAt] at hmem
      rcases hmem with ⟨-, rfl⟩ | ⟨-, rfl⟩
      · exact covers_below path _
      · exact covers_below path _

theorem differencesAt_eq_nil {path : String} {desired observed : Value}
    (hpaired : Value.Paired desired observed) :
    differencesAt path desired observed = [] ↔ desired.disagrees observed = false := by
  cases hpaired with
  | plain hplain => rw [differencesAt_plain hplain, plainDifferencesAt_eq_nil]
  | scaling desired observed =>
      rw [differencesAt_scaling, List.append_eq_nil_iff, plainDifferencesAt_eq_nil,
        plainDifferencesAt_eq_nil, Value.ofReal_disagrees_eq_false,
        Value.ofReal_disagrees_eq_false, Value.scaling_disagrees]
      rfl

end Changes

/-! ## Fields of a schema -/

/-- A schema lists all its fields, and their labels tell them apart and hold no point. -/
structure Schema.Lawful (S : Schema) : Prop where
  mem_fields : ∀ f : S.Field, f ∈ S.fields
  label_injective : ∀ f g : S.Field, S.label f = S.label g → f = g
  label_plain : ∀ f : S.Field, '.' ∉ (S.label f).toList

namespace Schema

theorem lawful_of_fields {S : Schema} (hall : ∀ f, f ∈ S.fields)
    (hnodup : (S.fields.map S.label).Nodup)
    (hplain : (S.fields.all fun f => !(S.label f).toList.contains '.') = true) : S.Lawful where
  mem_fields := hall
  label_injective := fun f g heq => List.inj_on_of_nodup_map hnodup (hall f) (hall g) heq
  label_plain := by
    intro f hmem
    have hf := List.all_eq_true.1 hplain f (hall f)
    simp [hmem] at hf

theorem Lawful.segments_path {S : Schema} (hlawful : S.Lawful) (f : S.Field) :
    Path.segments (S.path f) = ["Spec".toList, (S.label f).toList] := by
  have hroot : Path.segments Path.root = ["Spec".toList] := by decide
  rw [path, Path.segments_below, hroot, Path.segments_of_plain (hlawful.label_plain f)]
  rfl

/-- No path is below the paths of two fields. -/
theorem Lawful.eq_of_covers {S : Schema} (hlawful : S.Lawful) {f g : S.Field} {path : String}
    (hf : Path.covers (S.path f) path = true) (hg : Path.covers (S.path g) path = true) :
    f = g := by
  rw [Path.covers_iff_segments, hlawful.segments_path] at hf hg
  have hsame := (List.prefix_of_prefix_length_le hf hg (by simp)).eq_of_length (by simp)
  have hlabel : (S.label f).toList = (S.label g).toList := by simpa using hsame
  exact hlawful.label_injective f g (String.toList_inj.1 hlabel)

theorem Lawful.isEmpty_eq_false_of_covers {S : Schema} (hlawful : S.Lawful) {f : S.Field}
    {path : String} (hcovers : Path.covers (S.path f) path = true) : path.isEmpty = false := by
  rw [Bool.eq_false_iff]
  intro hempty
  rw [String.isEmpty_iff.1 hempty, Path.covers_iff_segments, hlawful.segments_path] at hcovers
  have hlength := hcovers.length_le
  simp [Path.segments, Text.parts] at hlength

end Schema

namespace Changes

variable {S : Schema}

/-- Changes field by field, each with a desired and an observed value. -/
def overFields (fields : List S.Field) (desired observed : S.Field → Value)
    (changes : Changes) : Changes :=
  fields.foldl (fun changes f => withValue (S.path f) (desired f) (observed f) changes) changes

def differencesOver (fields : List S.Field) (desired observed : S.Field → Value) :
    List Difference :=
  fields.flatMap fun f => differencesAt (S.path f) (desired f) (observed f)

theorem FreshAt.append_field (hlawful : S.Lawful) {changes : Changes} {f g : S.Field}
    (hne : f ≠ g) {desired observed : Value} (hpaired : Value.Paired desired observed)
    (hfresh : changes.FreshAt (S.path g)) :
    (changes.append (differencesAt (S.path f) desired observed)).FreshAt (S.path g) := by
  intro d hmem
  rcases List.mem_append.1 hmem with hold | hnew
  · exact hfresh d hold
  · rw [Bool.eq_false_iff]
    intro hcovers
    exact hne (hlawful.eq_of_covers (covers_of_mem_differencesAt hpaired hnew) hcovers)

theorem overFields_eq_append (hlawful : S.Lawful) {fields : List S.Field}
    (hnodup : fields.Nodup) {desired observed : S.Field → Value}
    (hpaired : ∀ f, Value.Paired (desired f) (observed f)) {changes : Changes}
    (hfresh : ∀ f ∈ fields, changes.FreshAt (S.path f)) :
    overFields fields desired observed changes =
      changes.append (differencesOver fields desired observed) := by
  induction fields generalizing changes with
  | nil => simp [overFields, differencesOver]
  | cons f rest ih =>
      have hnot := (List.nodup_cons.1 hnodup).1
      have hstep := withValue_eq_append (hpaired f) (hfresh f (List.mem_cons_self ..))
      have hrest : ∀ g ∈ rest,
          (changes.append (differencesAt (S.path f) (desired f) (observed f))).FreshAt
            (S.path g) := by
        intro g hmem
        have hne : f ≠ g := fun heq => hnot (heq ▸ hmem)
        exact (hfresh g (List.mem_cons_of_mem _ hmem)).append_field hlawful hne (hpaired f)
      have hlater := ih (List.nodup_cons.1 hnodup).2 hrest
      unfold overFields at hlater ⊢
      rw [List.foldl_cons, hstep, hlater, append_append]
      rfl

end Changes

/-- A change beyond one field is one beyond two fields or one in the second of them. -/
theorem Schema.Lawful.touchesBeyond_iff {S : Schema} (hlawful : S.Lawful) {f g : S.Field}
    (hne : f ≠ g) (changes : Changes) :
    changes.touchesBeyond [S.path f] = true ↔
      changes.touchesBeyond [S.path f, S.path g] = true ∨ changes.touches (S.path g) = true := by
  rw [Changes.touchesBeyond, Changes.touchesBeyond, Changes.touches, List.any_eq_true,
    List.any_eq_true, List.any_eq_true, ← exists_or]
  refine exists_congr fun d => ?_
  rw [← and_or_left]
  refine and_congr_right fun _ => ?_
  have hapart : ¬ (Path.covers (S.path f) d.path = true ∧ Path.covers (S.path g) d.path = true) :=
    fun h => hne (hlawful.eq_of_covers h.1 h.2)
  cases hf : Path.covers (S.path f) d.path <;> cases hg : Path.covers (S.path g) d.path
  · simp [hf, hg]
  · simp [hf, hg]
  · simp [hf, hg]
  · exact absurd ⟨hf, hg⟩ hapart

end DbSteward
