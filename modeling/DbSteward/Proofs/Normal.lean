import DbSteward.Proofs.Report

/-!
# Filling in what is left to the service

What a desired document leaves to the service is filled in from the observed document before
the two are compared.  Doing so twice is the same as doing it once, and it reaches only a few
fields.  It never turns agreement into a difference: where the two documents agree already
nothing is filled in, and what is filled in is compared as a single value with the same
observed value as before.
-/

namespace DbSteward

/-! ## Normal documents stay normal -/

theorem Version.settled_settled {desired observed live : Option String}
    (hlive : live = observed ∨ live = settled desired observed) :
    settled (settled desired observed) live = settled desired observed := by
  cases desired with
  | none => cases live <;> rfl
  | some wanted =>
      cases observed with
      | none =>
          rcases hlive with rfl | rfl
          · rfl
          · simp [settled]
      | some found =>
          by_cases hstarts : Text.startsWith found wanted = true
          · have hsettled : settled (some wanted) (some found) = some found := by
              simp [settled, hstarts]
            rw [hsettled] at hlive ⊢
            rcases hlive with rfl | rfl <;> simp [settled]
          · have hsettled : settled (some wanted) (some found) = some wanted := by
              simp [settled, hstarts]
            rw [hsettled] at hlive ⊢
            rcases hlive with rfl | rfl
            · exact hsettled
            · simp [settled]

theorem Cluster.normal_normal {desired observed live : clusterSchema.Record}
    (hlive : live .engineVersion = observed .engineVersion ∨
      live .engineVersion = normal desired observed .engineVersion) :
    normal (normal desired observed) live = normal desired observed := by
  by_cases hauto : autoMinor desired = true
  · have hstill : autoMinor (normal desired observed) = true := autoMinor_normal.trans hauto
    have hversion : normal desired observed .engineVersion =
        Version.settled (desired .engineVersion) (observed .engineVersion) :=
      normal_engineVersion hauto
    funext f
    by_cases hother : f = .engineVersion
    · subst hother
      rw [hversion] at hlive
      rw [normal_engineVersion hstill, hversion, Version.settled_settled hlive]
    · exact normal_of_ne hother
  · have hnormal (spec : clusterSchema.Record) : normal desired spec = desired := if_neg hauto
    rw [hnormal observed, hnormal live]

namespace Instance

theorem orObserved_orObserved {α : Type} {acceptable : α → Bool}
    {desired observed live : Option α}
    (hlive : live = observed ∨ live = orObserved acceptable desired observed) :
    orObserved acceptable (orObserved acceptable desired observed) live =
      orObserved acceptable desired observed := by
  cases desired with
  | some a => rfl
  | none =>
      have hwish : orObserved acceptable none observed = observed.filter acceptable := by
        simp [orObserved]
      rw [hwish] at hlive ⊢
      cases hfound : observed.filter acceptable with
      | some a => rfl
      | none =>
          rw [hfound] at hlive
          rcases hlive with rfl | rfl
          · simp [orObserved, hfound]
          · rfl

theorem insightsWish_insightsWish {desired observed live : Option Bool}
    (hlive : live = observed ∨ live = insightsWish desired observed) :
    insightsWish (insightsWish desired observed) live = insightsWish desired observed := by
  cases desired with
  | some a => rfl
  | none =>
      cases observed with
      | some a => rfl
      | none => rcases hlive with rfl | rfl <;> rfl

theorem normal_normal {desired observed live : instanceSchema.Record}
    (hlive : ∀ f ∈ [InstanceField.zone, .backupTarget, .networkType, .performanceInsights,
      .engineVersion], live f = observed f ∨ live f = normal desired observed f) :
    normal (normal desired observed) live = normal desired observed := by
  funext f
  cases f with
  | zone => exact orObserved_orObserved (hlive .zone (by decide))
  | backupTarget => exact orObserved_orObserved (hlive .backupTarget (by decide))
  | networkType => exact orObserved_orObserved (hlive .networkType (by decide))
  | performanceInsights =>
      exact insightsWish_insightsWish (hlive .performanceInsights (by decide))
  | engineVersion => exact Version.settled_settled (hlive .engineVersion (by decide))
  | _ => rfl

end Instance

/-! ## The fields that are filled in -/

theorem Version.settled_self (version : Option String) : settled version version = version := by
  cases version with
  | none => rfl
  | some version => exact ite_self _

namespace Instance

/-- The fields of an instance that the service chooses where nothing is desired. -/
def leftToService : List InstanceField :=
  [.zone, .backupTarget, .networkType, .performanceInsights]

theorem orObserved_of_desired {α : Type} {acceptable : α → Bool} {desired observed : Option α}
    (hdesired : desired ≠ none) : orObserved acceptable desired observed = desired := by
  obtain ⟨a, rfl⟩ := Option.ne_none_iff_exists'.1 hdesired
  rfl

theorem orObserved_self {α : Type} (acceptable : α → Bool) (value : Option α) :
    orObserved acceptable value value = value := by
  cases value with
  | none => rfl
  | some a => rfl

theorem insightsWish_of_desired {desired observed : Option Bool} (hdesired : desired ≠ none) :
    insightsWish desired observed = desired := by
  obtain ⟨wish, rfl⟩ := Option.ne_none_iff_exists'.1 hdesired
  rfl

theorem insightsWish_self (value : Option Bool) : insightsWish value value = value := by
  cases value with
  | none => rfl
  | some wish => rfl

end Instance

namespace Kind

variable {kind : Kind} {desired observed : kind.Spec} {f : kind.schema.Field}

/-- The field may be filled in: it is the engine version, or an instance leaves it to the
service and nothing is desired. -/
def FillsIn : (kind : Kind) → kind.Spec → kind.schema.Field → Prop
  | .dbCluster, _, f => f = .engineVersion
  | .dbInstance, desired, f =>
      f = .engineVersion ∨
        f ∈ Instance.leftToService ∧ desired f = (instanceSchema.type f).absent
  | .parameterGroup _, _, _ => False
  | .subnetGroup, _, _ => False
  | .snapshot _, _, _ => False

theorem fillsIn_of_normal_ne (hchanged : kind.normal desired observed f ≠ desired f) :
    kind.FillsIn desired f := by
  cases kind with
  | dbCluster =>
      by_contra hother
      exact hchanged (Cluster.normal_of_ne hother)
  | dbInstance =>
      cases f with
      | engineVersion => exact .inl rfl
      | zone =>
          exact .inr ⟨by decide, by_contra fun h => hchanged (Instance.orObserved_of_desired h)⟩
      | backupTarget =>
          exact .inr ⟨by decide, by_contra fun h => hchanged (Instance.orObserved_of_desired h)⟩
      | networkType =>
          exact .inr ⟨by decide, by_contra fun h => hchanged (Instance.orObserved_of_desired h)⟩
      | performanceInsights =>
          exact .inr ⟨by decide, by_contra fun h => hchanged (Instance.insightsWish_of_desired h)⟩
      | _ => exact absurd rfl hchanged
  | parameterGroup scope => exact hchanged rfl
  | subnetGroup => exact hchanged rfl
  | snapshot scope => exact hchanged rfl

/-- A field in which the two documents agree is left as it is. -/
theorem normal_of_agreement (hagree : desired f = observed f) :
    kind.normal desired observed f = desired f := by
  cases kind with
  | dbCluster =>
      by_cases hversion : f = ClusterField.engineVersion
      · subst hversion
        by_cases hauto : Cluster.autoMinor desired = true
        · rw [normal, Cluster.normal_engineVersion hauto, ← hagree, Version.settled_self]
        · exact congrFun (if_neg hauto) ClusterField.engineVersion
      · exact Cluster.normal_of_ne hversion
  | dbInstance =>
      simp only [normal]
      cases f with
      | engineVersion =>
          rw [Instance.normal, ← hagree, Version.settled_self]
      | zone => rw [Instance.normal, ← hagree, Instance.orObserved_self]
      | backupTarget => rw [Instance.normal, ← hagree, Instance.orObserved_self]
      | networkType => rw [Instance.normal, ← hagree, Instance.orObserved_self]
      | performanceInsights => rw [Instance.normal, ← hagree, Instance.insightsWish_self]
      | _ => rfl
  | parameterGroup scope => rfl
  | subnetGroup => rfl
  | snapshot scope => rfl

/-- What can be filled in is compared as it stands, as one text or one flag. -/
theorem FillsIn.compared (hfills : kind.FillsIn desired f) :
    f ∈ kind.schema.compared ∧
      (kind.schema.type f = .text ∨ kind.schema.type f = .flag) := by
  cases kind with
  | dbCluster =>
      obtain rfl : f = ClusterField.engineVersion := hfills
      exact ⟨by decide, .inl rfl⟩
  | dbInstance =>
      have hcompared : ∀ g ∈ InstanceField.engineVersion :: Instance.leftToService,
          g ∈ instanceSchema.compared ∧
            (instanceSchema.type g = .text ∨ instanceSchema.type g = .flag) := by decide
      refine hcompared f ?_
      rcases hfills with rfl | ⟨hleft, -⟩
      · exact List.mem_cons_self ..
      · exact List.mem_cons_of_mem _ hleft
  | parameterGroup scope => exact hfills.elim
  | subnetGroup => exact hfills.elim
  | snapshot scope => exact hfills.elim

end Kind

/-- Texts and flags differ as soon as they are not the same. -/
theorem FieldType.differs_of_ne {t : FieldType} (hsingle : t = .text ∨ t = .flag)
    {left right : t.Content} (hne : left ≠ right) : t.Differs left right := by
  rcases hsingle with rfl | rfl
  · exact hne
  · exact hne

/-! ## The differences that remain -/

/-- Where a difference is and what was found there, whatever is desired instead. -/
def Difference.origin (d : Difference) : String × Value :=
  (d.path, d.old)

/-- A value that disagrees with the observed one is reported wherever any other value is. -/
theorem Changes.origins_sublist {path : String} {wish other live : Value}
    (hdisagrees : wish.disagrees live = true) :
    ((plainDifferencesAt path other live).map Difference.origin).Sublist
      ((plainDifferencesAt path wish live).map Difference.origin) := by
  have hreported : plainDifferencesAt path wish live = [⟨path, live, wish⟩] := if_pos hdisagrees
  rw [hreported]
  unfold plainDifferencesAt
  split
  · exact List.Sublist.refl _
  · exact List.nil_sublist _

namespace Document

variable {kind : Kind} (desired observed : Document kind)

theorem comparedFields_normal :
    (desired.normal observed).comparedFields = desired.comparedFields := by
  cases kind <;> rfl

theorem observedValue_normal :
    (desired.normal observed).observedValue observed = desired.observedValue observed := by
  cases kind <;> rfl

theorem desiredValue_of_same {left right : Document kind} {f : kind.schema.Field}
    (hsame : left.spec f = right.spec f) : left.desiredValue f = right.desiredValue f := by
  have hvalue : Schema.Record.value left.spec f = Schema.Record.value right.spec f :=
    congrArg _ hsame
  cases kind with
  | dbInstance =>
      simp only [desiredValue, Instance.desiredValue]
      split
      · subst f
        rw [Instance.wantsReplication, Instance.wantsReplication, hsame]
      · exact hvalue
  | _ => exact hvalue

theorem normal_normal : (desired.normal observed).normal observed = desired.normal observed := by
  have hspec : kind.normal (kind.normal desired.spec observed.spec) observed.spec =
      kind.normal desired.spec observed.spec := by
    cases kind with
    | dbCluster => exact Cluster.normal_normal (.inl rfl)
    | dbInstance => exact Instance.normal_normal fun _ _ => .inl rfl
    | _ => rfl
  rw [normal, normal, hspec]

/-- The step of the walk: filling in one field may take its difference away, and does no more. -/
theorem origins_differencesAt_normal (f : kind.schema.Field) :
    ((Changes.differencesAt (kind.schema.path f) ((desired.normal observed).desiredValue f)
        ((desired.normal observed).observedValue observed f)).map Difference.origin).Sublist
      ((Changes.differencesAt (kind.schema.path f) (desired.desiredValue f)
        (desired.observedValue observed f)).map Difference.origin) := by
  rw [observedValue_normal]
  by_cases hsame : kind.normal desired.spec observed.spec f = desired.spec f
  · have hvalue : (desired.normal observed).desiredValue f = desired.desiredValue f :=
      desiredValue_of_same hsame
    rw [hvalue]
  · obtain ⟨hcompared, hsingle⟩ := (Kind.fillsIn_of_normal_ne hsame).compared
    have hplain : kind.schema.type f ≠ .scaling := by
      rcases hsingle with htext | hflag
      · simp [htext]
      · simp [hflag]
    -- Had the documents agreed on the field, it would not have been filled in.
    have hne : desired.spec f ≠ observed.spec f :=
      fun hagree => hsame (Kind.normal_of_agreement hagree)
    have hdisagrees := FieldType.disagrees_iff.2 (FieldType.differs_of_ne hsingle hne)
    obtain ⟨-, hdesired, hobserved⟩ := values_of_compared desired observed hcompared
    obtain ⟨-, hfilled, -⟩ := values_of_compared (desired.normal observed) observed hcompared
    rw [hfilled, hdesired, hobserved, Changes.differencesAt_of_type hplain,
      Changes.differencesAt_of_type hplain]
    exact Changes.origins_sublist hdisagrees

theorem origins_changes_normal :
    (((desired.normal observed).changes observed).differences.map Difference.origin).Sublist
      ((desired.changes observed).differences.map Difference.origin) := by
  rw [changes_differences, changes_differences, Changes.differencesOver, Changes.differencesOver,
    List.map_flatMap, List.map_flatMap, comparedFields_normal]
  exact List.Sublist.flatMap_right _ fun f _ => origins_differencesAt_normal desired observed f

/-- Filling in what a desired document leaves to the service only takes differences away.
Done twice it is as good as done once, the differences that remain are some of those there
were, in their order, and nothing of the document is touched but the fields that the service
may fill in. -/
theorem normal_only_removes_differences :
    (desired.normal observed).normal observed = desired.normal observed ∧
      (((desired.normal observed).changes observed).differences.map Difference.origin).Sublist
        ((desired.changes observed).differences.map Difference.origin) ∧
      (desired.normal observed).metadata = desired.metadata ∧
      (desired.normal observed).status = desired.status ∧
      ∀ f, (desired.normal observed).spec f ≠ desired.spec f → kind.FillsIn desired.spec f := by
  refine ⟨normal_normal desired observed, origins_changes_normal desired observed, rfl, rfl, ?_⟩
  intro f hchanged
  exact Kind.fillsIn_of_normal_ne hchanged

end Document
end DbSteward
