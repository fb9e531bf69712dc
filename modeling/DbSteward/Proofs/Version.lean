import DbSteward.Proofs.Fidelity
import Mathlib.Data.List.DropRight

/-!
# Engine versions and their components

An observed version stands in for a desired one that it begins with.  It then either refines the
desired version, with further components of its own, or merely runs on in the last component of it,
as version 14 does where version 1 is desired.

A cluster that upgrades to minor versions by itself is asked for another version only if the series
changes, that is, what is left of a version without the digits it ends in.  A change of the first
component changes the series unless there are no further components.
-/

namespace DbSteward

/-! ## Components -/

namespace Version

/-- What stands between the points of a version. -/
def components (version : String) : List (List Char) :=
  version.toList.splitOn '.'

/-- The second version is the first one with further components. -/
def Refines (wanted found : String) : Prop :=
  ∃ rest, found = wanted ++ "." ++ rest

/-- The second version goes on in the last component of the first one. -/
def RunsOn (wanted found : String) : Prop :=
  ∃ front last extra more, components wanted = front ++ [last] ∧
    components found = front ++ (last ++ extra) :: more ∧ extra ≠ []

theorem refines_iff {wanted found : String} :
    Refines wanted found ↔ ∃ rest, found.toList = wanted.toList ++ '.' :: rest := by
  constructor
  · rintro ⟨rest, rfl⟩
    exact ⟨rest.toList, by simp⟩
  · rintro ⟨rest, hfound⟩
    refine ⟨String.ofList rest, String.toList_inj.1 ?_⟩
    simp [hfound]

theorem Refines.components_eq {wanted found : String} (hrefines : Refines wanted found) :
    ∃ more, components found = components wanted ++ more := by
  obtain ⟨rest, hfound⟩ := refines_iff.1 hrefines
  exact ⟨rest.splitOn '.', by rw [components, hfound, List.splitOn_append_cons_self, components]⟩

theorem Refines.ne {wanted found : String} (hrefines : Refines wanted found) :
    wanted ≠ found := by
  rintro rfl
  obtain ⟨rest, hsame⟩ := refines_iff.1 hrefines
  simp at hsame

/-- A version that runs on has another component where the first version ends. -/
theorem RunsOn.not_components_prefix {wanted found : String} (hruns : RunsOn wanted found) :
    ¬ components wanted <+: components found := by
  obtain ⟨front, last, extra, more, hwanted, hfound, hextra⟩ := hruns
  rw [hwanted, hfound, List.prefix_append_right_inj, List.cons_prefix_cons]
  rintro ⟨hlast, -⟩
  exact hextra (List.self_eq_append_right.1 hlast)

theorem RunsOn.ne {wanted found : String} (hruns : RunsOn wanted found) : wanted ≠ found := by
  rintro rfl
  exact hruns.not_components_prefix (List.prefix_refl _)

theorem RunsOn.not_refines {wanted found : String} (hruns : RunsOn wanted found) :
    ¬ Refines wanted found := by
  intro hrefines
  obtain ⟨more, hfound⟩ := hrefines.components_eq
  exact hruns.not_components_prefix ⟨more, hfound.symm⟩

theorem runsOn_of_append {wanted found : String} {c : Char} {rest : List Char} (hc : c ≠ '.')
    (hfound : found.toList = wanted.toList ++ c :: rest) : RunsOn wanted found := by
  obtain ⟨front, last, first, more, hwanted, hrest, hboth⟩ :=
    Text.splitOn_append '.' wanted.toList (c :: rest)
  refine ⟨front, last, first, more, hwanted, by rw [components, hfound, hboth], ?_⟩
  -- What follows begins with a character that is no point, so its first part is not empty.
  rintro rfl
  rw [List.splitOn_cons_eq_if_modifyHead] at hrest
  obtain ⟨part, others, hparts⟩ := List.exists_cons_of_ne_nil (List.splitOn_ne_nil '.' rest)
  simp [hc, hparts] at hrest

/-- What follows a desired version in another one that begins with it decides: nothing, a point
or a further character of its last component. -/
theorem startsWith_iff {wanted found : String} :
    Text.startsWith found wanted = true ↔
      wanted = found ∨ Refines wanted found ∨ RunsOn wanted found := by
  rw [Text.startsWith_iff]
  constructor
  · rintro ⟨rest, hrest⟩
    cases rest with
    | nil =>
        rw [List.append_nil] at hrest
        exact .inl (String.toList_inj.1 hrest)
    | cons c rest =>
        by_cases hc : c = '.'
        · subst hc
          exact .inr (.inl (refines_iff.2 ⟨rest, hrest.symm⟩))
        · exact .inr (.inr (runsOn_of_append hc hrest.symm))
  · rintro (rfl | hrefines | ⟨front, last, extra, more, hwanted, hfound, -⟩)
    · exact List.prefix_refl _
    · obtain ⟨rest, hfound⟩ := refines_iff.1 hrefines
      exact ⟨'.' :: rest, hfound.symm⟩
    · have hprefix := Text.intercalate_prefix ['.'] front last extra more
      rw [← hwanted, ← hfound, components, components, List.intercalate_splitOn,
        List.intercalate_splitOn] at hprefix
      exact hprefix

/-! ## Versions that stand in for others -/

/-- The observed version stands in for another one that is desired. -/
inductive StandsIn : Option String → Option String → Prop where
  | refining {wanted found : String} (hrefines : Refines wanted found) :
      StandsIn (some wanted) (some found)
  | runningOn {wanted found : String} (hruns : RunsOn wanted found) :
      StandsIn (some wanted) (some found)

theorem standsIn_iff {wanted found : String} :
    StandsIn (some wanted) (some found) ↔ wanted ≠ found ∧ Text.startsWith found wanted = true := by
  rw [startsWith_iff]
  constructor
  · rintro (hrefines | hruns)
    · exact ⟨hrefines.ne, .inr (.inl hrefines)⟩
    · exact ⟨hruns.ne, .inr (.inr hruns)⟩
  · rintro ⟨hne, heq | hrefines | hruns⟩
    · exact absurd heq hne
    · exact .refining hrefines
    · exact .runningOn hruns

variable {desired observed : Option String}

theorem StandsIn.ne (hstands : StandsIn desired observed) : desired ≠ observed := by
  cases hstands with
  | refining hrefines => exact fun heq => hrefines.ne (Option.some.inj heq)
  | runningOn hruns => exact fun heq => hruns.ne (Option.some.inj heq)

theorem StandsIn.settled_eq (hstands : StandsIn desired observed) :
    settled desired observed = observed := by
  have hsettled {wanted found : String} (hstands : StandsIn (some wanted) (some found)) :
      settled (some wanted) (some found) = some found :=
    if_pos (standsIn_iff.1 hstands).2
  cases hstands with
  | refining hrefines => exact hsettled (.refining hrefines)
  | runningOn hruns => exact hsettled (.runningOn hruns)

theorem settled_eq_of_not_standsIn (hnot : ¬ StandsIn desired observed) :
    settled desired observed = desired := by
  cases desired with
  | none => rfl
  | some wanted =>
      cases observed with
      | none => rfl
      | some found =>
          rw [standsIn_iff, not_and] at hnot
          by_cases heq : wanted = found
          · subst heq
            exact ite_self _
          · exact if_neg (hnot heq)

theorem settled_ne_iff : settled desired observed ≠ desired ↔ StandsIn desired observed := by
  constructor
  · intro hreplaced
    by_contra hnot
    exact hreplaced (settled_eq_of_not_standsIn hnot)
  · intro hstands
    rw [hstands.settled_eq]
    exact hstands.ne.symm

theorem settled_ne_observed_iff :
    settled desired observed ≠ observed ↔ desired ≠ observed ∧ ¬ StandsIn desired observed := by
  by_cases hstands : StandsIn desired observed
  · simp [hstands, hstands.settled_eq]
  · simp [hstands, settled_eq_of_not_standsIn hstands]

/-- A desired version is replaced by an observed one that stands in for it, if it may be, and
otherwise is reported unless the observed version is the same. -/
structure Compared (mayReplace : Prop) (desired observed normal : Option String)
    (reported : Prop) : Prop where
  replaced_iff : normal ≠ desired ↔ mayReplace ∧ StandsIn desired observed
  replaced_by : normal ≠ desired → normal = observed
  reported_iff : reported ↔
    desired ≠ observed ∧ ¬ (mayReplace ∧ StandsIn desired observed)

theorem compared_settled {reported : Prop}
    (hreported : reported ↔ settled desired observed ≠ observed) :
    Compared True desired observed (settled desired observed) reported where
  replaced_iff := by rw [settled_ne_iff, true_and]
  replaced_by := fun hreplaced => (settled_ne_iff.1 hreplaced).settled_eq
  reported_iff := by rw [hreported, settled_ne_observed_iff, true_and]

theorem compared_self {mayReplace reported : Prop} (hnot : ¬ mayReplace)
    (hreported : reported ↔ desired ≠ observed) :
    Compared mayReplace desired observed desired reported where
  replaced_iff := by simp [hnot]
  replaced_by := fun hreplaced => absurd rfl hreplaced
  reported_iff := by simp [hnot, hreported]

end Version

theorem Cluster.version_path_mem_iff (desired observed : Document .dbCluster) :
    "Spec.EngineVersion" ∈ (desired.changes observed).paths ↔
      desired.spec .engineVersion ≠ observed.spec .engineVersion := by
  have hpath : clusterSchema.path .engineVersion = "Spec.EngineVersion" := by decide
  rw [← hpath, Document.path_mem_paths_iff desired observed (f := ClusterField.engineVersion)
    (by decide)]
  exact flagged_iff desired observed (by decide)

theorem Instance.version_path_mem_iff (desired observed : Document .dbInstance) :
    "Spec.EngineVersion" ∈ (desired.changes observed).paths ↔
      desired.spec .engineVersion ≠ observed.spec .engineVersion := by
  have hpath : instanceSchema.path .engineVersion = "Spec.EngineVersion" := by decide
  rw [← hpath]
  exact path_mem_paths_iff_of_compared desired observed (by decide)

/-- A small instance of a version. -/
def Document.sampleInstanceOf (version : String) : Document .dbInstance where
  metadata := .blank
  spec
    | .identifier => some "main"
    | .engineVersion => some version
    | f => instanceSchema.blank f
  status := ⟨some "arn:main", some "available", [], ⟨[], none⟩⟩

namespace Plan

open Version (Compared Refines RunsOn)

/-- An observed version replaces another one that is desired if it refines it or runs on in its
last component, which no refinement does, and for a cluster only if minor upgrades happen by
themselves.  Every other difference between the versions is reported. -/
theorem versions_compared (settings : Settings) :
    (∀ wanted found, RunsOn wanted found → ¬ Refines wanted found) ∧
      (∀ desired observed : Document .dbCluster,
        Compared (Cluster.autoMinor desired.spec = true) (desired.spec .engineVersion)
          (observed.spec .engineVersion) ((desired.normal observed).spec .engineVersion)
          ("Spec.EngineVersion" ∈ (of settings desired observed).changes.paths)) ∧
      ∀ desired observed : Document .dbInstance,
        Compared True (desired.spec .engineVersion) (observed.spec .engineVersion)
          ((desired.normal observed).spec .engineVersion)
          ("Spec.EngineVersion" ∈ (of settings desired observed).changes.paths) := by
  refine ⟨fun wanted found hruns => hruns.not_refines, fun desired observed => ?_,
    fun desired observed => ?_⟩
  · have hreported := Cluster.version_path_mem_iff (desired.normal observed) observed
    by_cases hauto : Cluster.autoMinor desired.spec = true
    · have hnormal : (desired.normal observed).spec .engineVersion =
          Version.settled (desired.spec .engineVersion) (observed.spec .engineVersion) :=
        Cluster.normal_engineVersion hauto
      rw [hnormal] at hreported ⊢
      rw [eq_true hauto]
      exact Version.compared_settled hreported
    · have hnormal : (desired.normal observed).spec .engineVersion =
          desired.spec .engineVersion :=
        congrFun (if_neg hauto) ClusterField.engineVersion
      rw [hnormal] at hreported ⊢
      exact Version.compared_self hauto hreported
  · exact Version.compared_settled
      (Instance.version_path_mem_iff (desired.normal observed) observed)

/-- A version of another minor series goes unreported where its number begins alike. -/
theorem longer_minor_version_unreported :
    ¬ Refines "10.1" "10.11.4" ∧
      ((Document.sampleInstanceOf "10.1").normal
        (.sampleInstanceOf "10.11.4")).spec .engineVersion = some "10.11.4" ∧
      (of .standard (.sampleInstanceOf "10.1")
        (.sampleInstanceOf "10.11.4")).changes.paths = [] := by
  have hruns : RunsOn "10.1" "10.11.4" :=
    ⟨[['1', '0']], ['1'], ['1'], [['4']], by decide, by decide, by decide⟩
  exact ⟨hruns.not_refines, by decide +kernel, by decide +kernel⟩

end Plan

/-! ## Versions that are asked for -/

namespace Version

/-- The first component of a version. -/
def major (version : String) : Option (List Char) :=
  (components version).head?

/-- Two versions that differ at most in the digits they end in, with no point before these. -/
def AlikeButDigits (wanted found : String) : Prop :=
  ∃ stem first second : List Char, wanted.toList = stem ++ first ∧
    found.toList = stem ++ second ∧ (∀ c ∈ first, c.isDigit = true) ∧
    (∀ c ∈ second, c.isDigit = true) ∧ '.' ∉ stem

theorem toList_series (version : String) :
    (series version).toList = version.toList.rdropWhile Char.isDigit := by
  simp [series, List.rdropWhile]

theorem rdropWhile_append_of_digits {stem digits : List Char}
    (hdigits : ∀ c ∈ digits, c.isDigit = true) :
    (stem ++ digits).rdropWhile Char.isDigit = stem.rdropWhile Char.isDigit := by
  rw [List.rdropWhile, List.reverse_append, List.dropWhile_append_of_pos, List.rdropWhile]
  exact fun c hmem => hdigits c (List.mem_reverse.1 hmem)

/-- A series tells versions apart but for the digits they end in. -/
theorem series_eq_iff {wanted found : String} :
    series wanted = series found ↔
      ∃ stem first second : List Char, wanted.toList = stem ++ first ∧
        found.toList = stem ++ second ∧ (∀ c ∈ first, c.isDigit = true) ∧
        ∀ c ∈ second, c.isDigit = true := by
  rw [← String.toList_inj, toList_series, toList_series]
  constructor
  · intro hseries
    refine ⟨wanted.toList.rdropWhile Char.isDigit, wanted.toList.rtakeWhile Char.isDigit,
      found.toList.rtakeWhile Char.isDigit, List.rdropWhile_append_rtakeWhile.symm, ?_,
      fun c => List.mem_rtakeWhile_imp, fun c => List.mem_rtakeWhile_imp⟩
    rw [hseries, List.rdropWhile_append_rtakeWhile]
  · rintro ⟨stem, first, second, hwanted, hfound, hfirst, hsecond⟩
    rw [hwanted, hfound, rdropWhile_append_of_digits hfirst, rdropWhile_append_of_digits hsecond]

theorem AlikeButDigits.series_eq {wanted found : String} (halike : AlikeButDigits wanted found) :
    series wanted = series found := by
  obtain ⟨stem, first, second, hwanted, hfound, hfirst, hsecond, -⟩ := halike
  exact series_eq_iff.2 ⟨stem, first, second, hwanted, hfound, hfirst, hsecond⟩

/-- The first component ends at the first point, whatever follows. -/
theorem major_of_point {version : String} {front rest : List Char}
    (hversion : version.toList = front ++ '.' :: rest) :
    major version = (front.splitOn '.').head? := by
  rw [major, components, hversion, List.splitOn_append_cons_self,
    List.head?_append_of_ne_nil _ (List.splitOn_ne_nil '.' front)]

/-- Versions of one series with different first components have nothing but these. -/
theorem alikeButDigits_of_series_eq {wanted : String} {observed : Option String}
    (hmajor : major wanted ≠ observed.bind major)
    (hseries : series wanted = series (observed.getD "")) :
    AlikeButDigits wanted (observed.getD "") := by
  obtain ⟨stem, first, second, hwanted, hfound, hfirst, hsecond⟩ := series_eq_iff.1 hseries
  refine ⟨stem, first, second, hwanted, hfound, hfirst, hsecond, fun hpoint => ?_⟩
  -- A point before the digits would end the first component of both versions.
  obtain ⟨front, rest, rfl⟩ := List.append_of_mem hpoint
  simp only [List.append_assoc, List.cons_append] at hwanted hfound
  cases observed with
  | none => simp at hfound
  | some found => exact hmajor ((major_of_point hwanted).trans (major_of_point hfound).symm)

theorem mustRequest_iff {wanted : String} {observed : Option String} {autoMinor : Bool}
    (hmajor : major wanted ≠ observed.bind major) :
    mustRequest wanted (observed.getD "") autoMinor = true ↔
      ¬ (autoMinor = true ∧ AlikeButDigits wanted (observed.getD "")) := by
  have hseries : series wanted = series (observed.getD "") ↔
      AlikeButDigits wanted (observed.getD "") :=
    ⟨alikeButDigits_of_series_eq hmajor, AlikeButDigits.series_eq⟩
  rw [← hseries, mustRequest]
  cases autoMinor <;> simp

end Version

/-- The call modifies a cluster, with a request for a version that passes the test. -/
def Call.asksVersion (test : Option String → Bool) : Call → Bool
  | .modifyCluster request => test (request.carried .engineVersion)
  | _ => false

/-- A small cluster, of a version or of none. -/
def Document.sampleClusterOf (version : Option String) : Document .dbCluster where
  metadata := .blank
  spec
    | .identifier => some "main"
    | .engineVersion => version
    | f => clusterSchema.blank f
  status := ⟨some "arn:main", some "available", [], ⟨none, none⟩⟩

namespace Pass

open Version (major AlikeButDigits)

theorem exists_request_of_asksVersion {made : List Call} {test : Option String → Bool}
    (hasks : made.any (·.asksVersion test) = true) :
    ∃ request, .modifyCluster request ∈ made ∧
      test (request.carried .engineVersion) = true := by
  obtain ⟨call, hmem, hcall⟩ := List.any_eq_true.1 hasks
  cases call with
  | modifyCluster request => exact ⟨request, hmem, hcall⟩
  | _ => simp [Call.asksVersion] at hcall

/-- A request to modify a cluster carries a desired version whose first component is not the
observed one, unless minor upgrades happen by themselves and the two versions are single
components that differ only in the digits they end in; an absent version counts as an empty one
there. -/
theorem major_change_requested_unless_alike {context : Context} {world : World}
    {desired observed : Document .dbCluster} {request : Modification clusterSchema}
    {wanted : String}
    (hsent : .modifyCluster request ∈ calls world (settle context desired observed))
    (hwanted : (desired.normal observed).spec .engineVersion = some wanted)
    (hmajor : major wanted ≠ (observed.spec .engineVersion).bind major) :
    (request.carried .engineVersion = some wanted ↔
        ¬ (Cluster.autoMinor desired.spec = true ∧
          AlikeButDigits wanted ((observed.spec .engineVersion).getD ""))) ∧
      (request.carried .engineVersion = none ↔
        Cluster.autoMinor desired.spec = true ∧
          AlikeButDigits wanted ((observed.spec .engineVersion).getD "")) := by
  have hfaithful := faithful_of_modifyCluster hsent
  have hdiffers : (desired.normal observed).spec .engineVersion ≠
      observed.spec .engineVersion := by
    intro heq
    rw [← heq, hwanted] at hmajor
    exact hmajor rfl
  have hauto : ((desired.normal observed).spec .autoMinorUpgrade).getD true =
      Cluster.autoMinor desired.spec :=
    Cluster.autoMinor_normal
  have hcarried : request.carried .engineVersion = some wanted ↔
      ¬ (Cluster.autoMinor desired.spec = true ∧
        AlikeButDigits wanted ((observed.spec .engineVersion).getD "")) := by
    rw [hfaithful.version_iff, hauto, Version.mustRequest_iff hmajor]
    exact ⟨fun h => h.2.2, fun h => ⟨hwanted, hdiffers, h⟩⟩
  refine ⟨hcarried, ?_⟩
  rw [← not_iff_not, ← hcarried]
  constructor
  · intro hsome
    obtain ⟨version, hversion⟩ := Option.ne_none_iff_exists'.1 hsome
    obtain ⟨hdesired, -⟩ := (hfaithful.version_iff version).1 hversion
    rw [hversion, ← hdesired, hwanted]
  · intro hversion
    simp [hversion]

/-- A new first component with a further one is asked for. -/
theorem major_change_requested :
    ∃ request, Call.modifyCluster request ∈ calls (.initial (.memory .fresh))
        (settle .sample (.sampleClusterOf (some "15.2")) (.sampleClusterOf (some "14.6"))) ∧
      request.carried .engineVersion = some "15.2" := by
  have hsent : (calls (.initial (.memory .fresh)) (settle .sample
      (.sampleClusterOf (some "15.2")) (.sampleClusterOf (some "14.6")))).any
        (·.asksVersion fun _ => true) = true := by
    decide +kernel
  obtain ⟨request, hmem, -⟩ := exists_request_of_asksVersion hsent
  have hwanted : ((Document.sampleClusterOf (some "15.2")).normal
      (.sampleClusterOf (some "14.6"))).spec .engineVersion = some "15.2" := by
    decide +kernel
  obtain ⟨hcarried, -⟩ := major_change_requested_unless_alike hmem hwanted (by decide +kernel)
  refine ⟨request, hmem, hcarried.2 fun halike => ?_⟩
  exact absurd halike.2.series_eq (by decide +kernel)

/-- A version 15 is not asked for where version 14 or no version is observed. -/
theorem single_component_not_requested :
    (major "15" ≠ major "14" ∧
      ∃ request, Call.modifyCluster request ∈ calls (.initial (.memory .fresh))
          (settle .sample (.sampleClusterOf (some "15")) (.sampleClusterOf (some "14"))) ∧
        request.carried .engineVersion = none) ∧
      major "15" ≠ none ∧
        ∃ request, Call.modifyCluster request ∈ calls (.initial (.memory .fresh))
            (settle .sample (.sampleClusterOf (some "15")) (.sampleClusterOf none)) ∧
          request.carried .engineVersion = none := by
  have hrequest : ∀ observed ∈ [some "14", none], ∃ request, Call.modifyCluster request ∈
      calls (.initial (.memory .fresh))
        (settle .sample (.sampleClusterOf (some "15")) (.sampleClusterOf observed)) ∧
      request.carried .engineVersion = none := by
    intro observed hobserved
    have hsent : ∀ live ∈ [some "14", none], (calls (.initial (.memory .fresh)) (settle .sample
        (.sampleClusterOf (some "15")) (.sampleClusterOf live))).any
          (·.asksVersion Option.isNone) = true := by
      decide +kernel
    obtain ⟨request, hmem, hnone⟩ := exists_request_of_asksVersion (hsent observed hobserved)
    exact ⟨request, hmem, Option.isNone_iff_eq_none.1 hnone⟩
  exact ⟨⟨by decide, hrequest _ (by simp)⟩, by decide, hrequest _ (by simp)⟩

end Pass
end DbSteward
