import DbSteward.Proofs.Mismatch

/-!
# Places of mismatches

The places of two regular values are reached by following names through objects that are there on
both sides.  The mismatches are the places at which the values disagree and cannot be followed
further, and they come depth first in the order of the names, those that are only observed last.
-/

namespace DbSteward
namespace Value

/-- Following some names into two values, through objects that are there on both sides, leads to
two others. -/
inductive Meet : Value → Value → List String → Value → Value → Prop where
  | here (desired observed : Value) : Meet desired observed [] desired observed
  | inside {a b : List Attribute} {pair : Pair} {names : List String} {wanted found : Value}
      (hpair : pair.Between a b) (hbelow : Meet pair.desired pair.observed names wanted found) :
      Meet (.object (some a)) (.object (some b)) (pair.name :: names) wanted found

/-- Read depth first, two values have one place before the other. -/
inductive Before : Value → Value → List String → List String → Prop where
  | apart {a b : List Attribute} {first second : String}
      (hnames : [first, second].Sublist (Pair.names a b)) (names others : List String) :
      Before (.object (some a)) (.object (some b)) (first :: names) (second :: others)
  | inside {a b : List Attribute} {pair : Pair} {names others : List String}
      (hpair : pair.Between a b) (hbelow : Before pair.desired pair.observed names others) :
      Before (.object (some a)) (.object (some b)) (pair.name :: names) (pair.name :: others)

/-! ## Which mismatches there are -/

theorem meet_plain_iff {desired observed : Value} (hplain : ¬ BothObjects desired observed)
    {names : List String} {wanted found : Value} :
    Meet desired observed names wanted found ↔
      names = [] ∧ wanted = desired ∧ found = observed := by
  constructor
  · intro hmeet
    cases hmeet with
    | here => exact ⟨rfl, rfl, rfl⟩
    | inside => exact absurd ⟨_, _, rfl, rfl⟩ hplain
  · rintro ⟨rfl, rfl, rfl⟩
    exact .here wanted found

theorem mem_plainMismatches_iff {desired observed : Value} {m : Mismatch} :
    m ∈ plainMismatches desired observed ↔
      desired.disagrees observed = true ∧ m = ⟨[], observed, desired⟩ := by
  unfold plainMismatches
  split <;> simp_all

theorem mem_mismatches_objects_iff {a b : List Attribute} {m : Mismatch} :
    m ∈ (object (some a)).mismatches (object (some b)) ↔
      ∃ pair ∈ Pair.all a b, ∃ n ∈ pair.desired.mismatches pair.observed,
        n.inside pair.name = m := by
  rw [mismatches_objects, List.mem_flatMap]
  exact exists_congr fun pair => and_congr_right fun _ => List.mem_map

/-- The mismatches are the places at which the two values disagree and are not both objects. -/
theorem mem_mismatches_iff {desired observed : Value} (hdesired : desired.Regular)
    (hobserved : observed.Regular) {m : Mismatch} :
    m ∈ desired.mismatches observed ↔
      Meet desired observed m.names m.new m.old ∧ m.new.disagrees m.old = true ∧
        ¬ BothObjects m.new m.old := by
  induction desired, observed using paired_induction generalizing m with
  | plain desired observed hplain =>
      rw [mismatches_plain hplain, mem_plainMismatches_iff, meet_plain_iff hplain]
      obtain ⟨names, old, new⟩ := m
      simp only [Mismatch.mk.injEq]
      constructor
      · rintro ⟨hdisagrees, rfl, rfl, rfl⟩
        exact ⟨⟨rfl, rfl, rfl⟩, hdisagrees, hplain⟩
      · rintro ⟨⟨rfl, rfl, rfl⟩, hdisagrees, -⟩
        exact ⟨hdisagrees, rfl, rfl, rfl⟩
  | objects a b ih =>
      have hbelow : ∀ pair ∈ Pair.all a b, ∀ n : Mismatch,
          n ∈ pair.desired.mismatches pair.observed ↔
            Meet pair.desired pair.observed n.names n.new n.old ∧
              n.new.disagrees n.old = true ∧ ¬ BothObjects n.new n.old := by
        intro pair hpair n
        obtain ⟨hwanted, hfound⟩ := (Pair.between_of_mem_all hpair).regular hdesired hobserved
        exact ih pair hpair hwanted hfound
      rw [mem_mismatches_objects_iff]
      constructor
      · rintro ⟨pair, hpair, n, hn, rfl⟩
        obtain ⟨hmeet, hdisagrees, hplain⟩ := (hbelow pair hpair n).1 hn
        exact ⟨.inside (Pair.between_of_mem_all hpair) hmeet, hdisagrees, hplain⟩
      · obtain ⟨names, old, new⟩ := m
        rintro ⟨hmeet, hdisagrees, hplain⟩
        cases hmeet with
        | here => exact absurd ⟨a, b, rfl, rfl⟩ hplain
        | @inside _ _ pair rest _ _ hbetween hmeet =>
            have hpair := Pair.mem_all_of_between hobserved.names_nodup hbetween
            exact ⟨pair, hpair, ⟨rest, old, new⟩,
              (hbelow pair hpair _).2 ⟨hmeet, hdisagrees, hplain⟩, rfl⟩

theorem Meet.names_plain {desired observed wanted found : Value} {names : List String}
    (hmeet : Meet desired observed names wanted found) (hdesired : desired.Regular)
    (hobserved : observed.Regular) : ∀ name ∈ names, '.' ∉ name.toList := by
  induction hmeet with
  | here => exact fun name hmem => absurd hmem List.not_mem_nil
  | inside hpair hbelow ih =>
      obtain ⟨hwanted, hfound⟩ := hpair.regular hdesired hobserved
      exact List.forall_mem_cons.2 ⟨hpair.name_plain hdesired hobserved, ih hwanted hfound⟩

theorem names_plain_of_mem_mismatches {desired observed : Value} (hdesired : desired.Regular)
    (hobserved : observed.Regular) {m : Mismatch} (hmem : m ∈ desired.mismatches observed) :
    ∀ name ∈ m.names, '.' ∉ name.toList :=
  ((mem_mismatches_iff hdesired hobserved).1 hmem).1.names_plain hdesired hobserved

/-! ## The order of mismatches -/

theorem mismatches_pairwise_before (desired observed : Value) :
    (desired.mismatches observed).Pairwise fun m n =>
      Before desired observed m.names n.names := by
  induction desired, observed using paired_induction with
  | plain desired observed hplain =>
      rw [mismatches_plain hplain, plainMismatches]
      split <;> simp
  | objects a b ih =>
      rw [mismatches_objects, List.pairwise_flatMap]
      constructor
      · intro pair hpair
        rw [Pair.mismatches, List.pairwise_map]
        exact (ih pair hpair).imp fun hbefore =>
          .inside (Pair.between_of_mem_all hpair) hbefore
      · rw [List.pairwise_iff_forall_sublist]
        intro first second hsublist m hm n hn
        obtain ⟨m, -, rfl⟩ := List.mem_map.1 hm
        obtain ⟨n, -, rfl⟩ := List.mem_map.1 hn
        have hnames := hsublist.map Pair.name
        rw [Pair.names_all] at hnames
        exact .apart hnames m.names n.names

theorem Before.ne {desired observed : Value} {names others : List String}
    (hbefore : Before desired observed names others) (hdesired : desired.Regular)
    (hobserved : observed.Regular) : names ≠ others := by
  induction hbefore with
  | apart hnames names others =>
      intro heq
      have hnodup := hnames.nodup (Pair.names_nodup hdesired.names_nodup hobserved.names_nodup)
      simp [(List.cons.inj heq).1] at hnodup
  | inside hpair hbelow ih =>
      obtain ⟨hwanted, hfound⟩ := hpair.regular hdesired hobserved
      exact fun heq => ih hwanted hfound (List.cons.inj heq).2

end Value
end DbSteward
