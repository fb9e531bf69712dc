import DbSteward.Proofs.Comparison

/-!
# References that read alike

What was last sent as the master password is remembered by the text of its reference.  The
text `namespace/name.key` has no quoting, so a separator inside a part can be taken for the one
between two parts.  This file says which references have the same text, and with that which
changes of the reference a comparison notices.
-/

namespace DbSteward

namespace Text

/-- The text `a ++ separator ++ x` also falls apart into `b` and `y`, at a later separator. -/
def SplitsLater (separator a x b y : String) : Prop :=
  ∃ mid, b = a ++ separator ++ mid ∧ x = mid ++ separator ++ y

theorem append_cons_eq_iff {α : Type} {c : α} {a b x y : List α} :
    a ++ c :: x = b ++ c :: y ↔
      (a = b ∧ x = y) ∨ (∃ mid, b = a ++ c :: mid ∧ x = mid ++ c :: y) ∨
        ∃ mid, a = b ++ c :: mid ∧ y = mid ++ c :: x := by
  constructor
  · intro heq
    rcases List.append_eq_append_iff.1 heq with ⟨middle, hb, hx⟩ | ⟨middle, ha, hy⟩
    · cases middle with
      | nil =>
          rw [List.append_nil] at hb
          exact .inl ⟨hb.symm, (List.cons.inj hx).2⟩
      | cons head mid =>
          obtain ⟨rfl, hmid⟩ := List.cons.inj hx
          exact .inr (.inl ⟨mid, hb, hmid⟩)
    · cases middle with
      | nil =>
          rw [List.append_nil] at ha
          exact .inl ⟨ha, (List.cons.inj hy).2.symm⟩
      | cons head mid =>
          obtain ⟨rfl, hmid⟩ := List.cons.inj hy
          exact .inr (.inr ⟨mid, ha, hmid⟩)
  · rintro (⟨rfl, rfl⟩ | ⟨mid, rfl, rfl⟩ | ⟨mid, rfl, rfl⟩) <;> simp

section Separator

variable {separator a b x y : String} {c : Char} (hseparator : separator.toList = [c])
include hseparator

theorem toList_joined (a x : String) :
    (a ++ separator ++ x).toList = a.toList ++ c :: x.toList := by
  rw [String.toList_append, String.toList_append, hseparator, List.append_assoc,
    List.singleton_append]

theorem splitsLater_iff :
    SplitsLater separator a x b y ↔
      ∃ mid, b.toList = a.toList ++ c :: mid ∧ x.toList = mid ++ c :: y.toList := by
  constructor
  · rintro ⟨mid, rfl, rfl⟩
    exact ⟨mid.toList, toList_joined hseparator a mid, toList_joined hseparator mid y⟩
  · rintro ⟨mid, hb, hx⟩
    refine ⟨String.ofList mid, String.toList_inj.1 ?_, String.toList_inj.1 ?_⟩
    · rw [toList_joined hseparator, String.toList_ofList, hb]
    · rw [toList_joined hseparator, String.toList_ofList, hx]

/-- Two joined texts are equal if their parts are, or if one falls apart later than the other. -/
theorem joined_eq_iff :
    a ++ separator ++ x = b ++ separator ++ y ↔
      (a = b ∧ x = y) ∨ SplitsLater separator a x b y ∨ SplitsLater separator b y a x := by
  rw [splitsLater_iff hseparator, splitsLater_iff hseparator, ← String.toList_inj,
    toList_joined hseparator, toList_joined hseparator, append_cons_eq_iff, String.toList_inj,
    String.toList_inj]

theorem mem_of_splitsLater (hlater : SplitsLater separator a x b y) : c ∈ b.toList := by
  obtain ⟨mid, hb, -⟩ := (splitsLater_iff hseparator).1 hlater
  simp [hb]

end Separator
end Text

namespace SecretRef

variable {r s : SecretRef}

def localText (r : SecretRef) : String :=
  r.name ++ "." ++ r.key

theorem text_eq (r : SecretRef) : r.text = r.space ++ "/" ++ r.localText := by
  simp only [text, localText, String.append_assoc]

/-- The text of `r` can be read as `s`, whose parts end at later separators. -/
inductive ReadsAs (r s : SecretRef) : Prop where
  | dot (hspace : r.space = s.space) (hlater : Text.SplitsLater "." r.name r.key s.name s.key)
  | slash (hlater : Text.SplitsLater "/" r.space r.localText s.space s.localText)

theorem text_eq_iff : r.text = s.text ↔ r = s ∨ ReadsAs r s ∨ ReadsAs s r := by
  have hdot : r.localText = s.localText ↔ _ :=
    Text.joined_eq_iff (rfl : ".".toList = ['.'])
  rw [text_eq, text_eq, Text.joined_eq_iff (rfl : "/".toList = ['/'])]
  constructor
  · rintro (⟨hspace, hlocal⟩ | hlater | hlater)
    · rcases hdot.1 hlocal with ⟨hname, hkey⟩ | hlater | hlater
      · obtain ⟨space, name, key⟩ := r
        obtain rfl : space = s.space := hspace
        obtain rfl : name = s.name := hname
        obtain rfl : key = s.key := hkey
        exact .inl rfl
      · exact .inr (.inl (.dot hspace hlater))
      · exact .inr (.inr (.dot hspace.symm hlater))
    · exact .inr (.inl (.slash hlater))
    · exact .inr (.inr (.slash hlater))
  · rintro (rfl | (⟨hspace, hlater⟩ | hlater) | (⟨hspace, hlater⟩ | hlater))
    · exact .inl ⟨rfl, rfl⟩
    · exact .inl ⟨hspace, hdot.2 (.inr (.inl hlater))⟩
    · exact .inr (.inl hlater)
    · exact .inl ⟨hspace.symm, hdot.2 (.inr (.inr hlater))⟩
    · exact .inr (.inr hlater)

/-- The namespace holds no slash, and the name of the secret no dot. -/
def Plain (r : SecretRef) : Prop :=
  '/' ∉ r.space.toList ∧ '.' ∉ r.name.toList

theorem not_readsAs_of_plain (hplain : s.Plain) : ¬ ReadsAs r s := by
  rintro (⟨hspace, hlater⟩ | hlater)
  · exact hplain.2 (Text.mem_of_splitsLater rfl hlater)
  · exact hplain.1 (Text.mem_of_splitsLater rfl hlater)

theorem text_ne_empty (r : SecretRef) : r.text ≠ "" := by
  intro hempty
  have hlist := Text.toList_joined (rfl : "/".toList = ['/']) r.space r.localText
  rw [← text_eq, hempty] at hlist
  exact List.append_ne_nil_of_right_ne_nil _ (List.cons_ne_nil _ _) hlist.symm

/-- The references are remembered by the same text. -/
inductive Alike : Option SecretRef → Option SecretRef → Prop where
  | none : Alike none none
  | some {r s : SecretRef} (hreads : r = s ∨ ReadsAs r s ∨ ReadsAs s r) : Alike (some r) (some s)

theorem textOf_eq_iff {recorded wanted : Option SecretRef} :
    textOf recorded = textOf wanted ↔ Alike recorded wanted := by
  cases recorded with
  | none =>
      cases wanted with
      | none => exact ⟨fun _ => .none, fun _ => rfl⟩
      | some s => exact ⟨fun heq => absurd heq.symm s.text_ne_empty, nofun⟩
  | some r =>
      cases wanted with
      | none => exact ⟨fun heq => absurd heq r.text_ne_empty, nofun⟩
      | some s =>
          constructor
          · exact fun heq => .some (text_eq_iff.1 heq)
          · intro halike
            cases halike with
            | some hreads => exact text_eq_iff.2 hreads

theorem alike_iff_of_plain {recorded wanted : Option SecretRef}
    (hrecorded : ∀ r ∈ recorded, r.Plain) (hwanted : ∀ s ∈ wanted, s.Plain) :
    Alike recorded wanted ↔ recorded = wanted := by
  constructor
  · intro halike
    cases halike with
    | none => rfl
    | some hreads =>
        rcases hreads with rfl | hreads | hreads
        · rfl
        · exact absurd hreads (not_readsAs_of_plain (hwanted _ rfl))
        · exact absurd hreads (not_readsAs_of_plain (hrecorded _ rfl))
  · rintro rfl
    exact textOf_eq_iff.1 rfl

end SecretRef

/-! ## Documents with a master password -/

namespace Kind

def hasPassword : Kind → Bool
  | .dbCluster => true
  | .dbInstance => true
  | _ => false

end Kind

namespace Document

variable {kind : Kind}

/-- The reference to the master password, where the kind has one. -/
def masterPassword : {kind : Kind} → Document kind → Option SecretRef
  | .dbCluster, doc => doc.spec .password
  | .dbInstance, doc => doc.spec .password
  | _, _ => none

theorem masterPassword_normal (desired observed : Document kind) :
    (desired.normal observed).masterPassword = desired.masterPassword := by
  cases kind with
  | dbCluster => exact Cluster.normal_of_ne (by decide)
  | _ => rfl

theorem password_mem_paths_iff (hkind : kind.hasPassword = true)
    (desired observed : Document kind) :
    "Spec.MasterUserPassword" ∈ (desired.changes observed).paths ↔
      SecretRef.textOf desired.masterPassword ≠
        desired.metadata.annotations.lastAppliedSecret := by
  cases kind with
  | dbCluster =>
      have hpath := path_mem_paths_iff desired observed (f := ClusterField.password) (by decide)
      exact hpath.trans (Cluster.flagged_password_iff desired observed)
  | dbInstance =>
      have hpath := path_mem_paths_iff desired observed (f := InstanceField.password) (by decide)
      exact hpath.trans (Instance.flagged_password_iff desired observed)
  | _ => exact absurd hkind Bool.false_ne_true

/-- A small cluster that remembers a reference by its text and asks for another. -/
def sampleSecured (recorded : String) (password : SecretRef) : Document .dbCluster where
  metadata := { Metadata.blank with
    annotations := Table.ofList [(Annotations.lastAppliedSecretKey, recorded)] }
  spec
    | .identifier => some "main"
    | .password => some password
    | f => clusterSchema.blank f
  status := ⟨none, none, [], ⟨none, none⟩⟩

end Document

namespace Plan

/-- With one reference recorded and another one desired, the plan notices the change unless the
two read alike.  Where no namespace holds a slash and no name a dot, it notices every change. -/
theorem password_change_noticed_iff {kind : Kind} (hkind : kind.hasPassword = true)
    (settings : Settings) (desired observed : Document kind) {recorded : Option SecretRef}
    (hrecorded : desired.metadata.annotations.lastAppliedSecret = SecretRef.textOf recorded) :
    ("Spec.MasterUserPassword" ∈ (of settings desired observed).changes.paths ↔
        ¬ SecretRef.Alike recorded desired.masterPassword) ∧
      ((∀ r ∈ recorded, r.Plain) → (∀ s ∈ desired.masterPassword, s.Plain) →
        ("Spec.MasterUserPassword" ∈ (of settings desired observed).changes.paths ↔
          recorded ≠ desired.masterPassword)) := by
  have hpath := Document.password_mem_paths_iff hkind (desired.normal observed) observed
  have hannotations : (desired.normal observed).metadata.annotations.lastAppliedSecret =
      SecretRef.textOf recorded := hrecorded
  rw [desired.masterPassword_normal, hannotations, ne_comm, Ne, SecretRef.textOf_eq_iff] at hpath
  refine ⟨hpath, fun hplain hplain' => ?_⟩
  rw [Ne, ← SecretRef.alike_iff_of_plain hplain hplain']
  exact hpath

/-- Another secret is noticed. -/
theorem other_secret_noticed :
    (Document.sampleSecured "prod/db-master.password"
        ⟨"prod", "db-other", "password"⟩).metadata.annotations.lastAppliedSecret =
          SecretRef.textOf (some ⟨"prod", "db-master", "password"⟩) ∧
      "Spec.MasterUserPassword" ∈ (of .standard
        (.sampleSecured "prod/db-master.password" ⟨"prod", "db-other", "password"⟩)
        (.sampleSecured "" ⟨"", "", ""⟩)).changes.paths := by
  have hrecorded : (Document.sampleSecured "prod/db-master.password"
      ⟨"prod", "db-other", "password"⟩).metadata.annotations.lastAppliedSecret =
        SecretRef.textOf (some ⟨"prod", "db-master", "password"⟩) := by decide +kernel
  have hplain : ∀ name : String, '.' ∉ name.toList →
      ∀ r ∈ some (⟨"prod", name, "password"⟩ : SecretRef), r.Plain := by
    rintro name hname r ⟨⟩
    exact ⟨(by decide : '/' ∉ "prod".toList), hname⟩
  obtain ⟨-, hplainly⟩ := password_change_noticed_iff rfl .standard _
    (.sampleSecured "" ⟨"", "", ""⟩) hrecorded
  have hnoticed := hplainly (hplain _ (by decide)) (hplain _ (by decide))
  exact ⟨hrecorded, hnoticed.2 (by decide)⟩

/-- The key of one secret and another key of another secret read alike, so that the change from
one to the other goes unnoticed. -/
theorem moved_dot_unnoticed :
    (⟨"prod", "db.master", "password"⟩ : SecretRef) ≠ ⟨"prod", "db", "master.password"⟩ ∧
      (Document.sampleSecured "prod/db.master.password"
        ⟨"prod", "db", "master.password"⟩).metadata.annotations.lastAppliedSecret =
          SecretRef.textOf (some ⟨"prod", "db.master", "password"⟩) ∧
      "Spec.MasterUserPassword" ∉ (of .standard
        (.sampleSecured "prod/db.master.password" ⟨"prod", "db", "master.password"⟩)
        (.sampleSecured "" ⟨"", "", ""⟩)).changes.paths := by
  refine ⟨by decide, by decide +kernel, by decide +kernel⟩

end Plan
end DbSteward
