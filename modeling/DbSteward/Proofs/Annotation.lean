import DbSteward.Document.Annotation

/-!
# What the annotations say about deletion

Two options of a deletion are truth values, which an annotation says by one of their spellings,
and the third is the name of the final snapshot.  An annotation with an empty text says no truth
value, just as if it were missing; as a name, though, the empty text is taken for what it is.  The
options depend on no other annotation, and the first text at fault decides which error is
reported.
-/

namespace DbSteward

namespace DeletionOptions

/-- The truth value that a text spells. -/
def spelled? (raw : String) : Option Bool :=
  if trueSpellings.contains raw then some true
  else if falseSpellings.contains raw then some false
  else none

def malformed (key raw : String) : Failure :=
  .invalidSpec key ("invalid boolean value '" ++ raw ++ "'")

theorem truth_eq (key raw : String) :
    truth key raw =
      match spelled? raw with
      | some b => .ok b
      | none => .error (malformed key raw) := by
  unfold truth spelled?
  split
  · rfl
  · split
    · rfl
    · rfl

def withoutEmptyName (options : DeletionOptions) : DeletionOptions :=
  { options with finalSnapshot := options.finalSnapshot.filter fun name => !name.isEmpty }

end DeletionOptions

namespace Annotations

variable {annotations others : Annotations} {key raw : String}

/-- The text of an annotation, unless it is empty. -/
def said? (annotations : Annotations) (key : String) : Option String :=
  (annotations.get? key).filter fun raw => !raw.isEmpty

/-- The truth value that an annotation says. -/
def truth? (annotations : Annotations) (key : String) : Option Bool :=
  (annotations.said? key).bind DeletionOptions.spelled?

/-- The annotation says something, and it is not a truth value. -/
def isMalformed (annotations : Annotations) (key : String) : Bool :=
  (annotations.said? key).any fun raw => (DeletionOptions.spelled? raw).isNone

/-- The first annotation that should say a truth value and does not. -/
def firstMalformed? (annotations : Annotations) : Option String :=
  [skipFinalSnapshotKey, deleteAutomatedBackupsKey].find? annotations.isMalformed

def deletionKeys : List String :=
  [skipFinalSnapshotKey, finalSnapshotKey, deleteAutomatedBackupsKey]

/-- The annotations without those about deletion that have an empty text. -/
def withoutEmptyOptions (annotations : Annotations) : Annotations :=
  annotations.filter fun key raw => !(deletionKeys.contains key && raw.isEmpty)

theorem get?_of_said (hsaid : annotations.said? key = some raw) :
    annotations.get? key = some raw := by
  obtain ⟨hget, -⟩ := Option.filter_eq_some_iff.1 hsaid
  exact hget

theorem said?_congr (hget : others.get? key = annotations.get? key) :
    others.said? key = annotations.said? key := by
  rw [said?, hget, said?]

theorem get?_withoutEmptyOptions (hkey : key ∈ deletionKeys) :
    annotations.withoutEmptyOptions.get? key = annotations.said? key := by
  have hoption : deletionKeys.contains key = true := List.contains_iff_mem.2 hkey
  rw [withoutEmptyOptions, Table.get?_filter, said?, hoption]
  simp only [Bool.true_and]

theorem said?_withoutEmptyOptions (hkey : key ∈ deletionKeys) :
    annotations.withoutEmptyOptions.said? key = annotations.said? key := by
  rw [said?, get?_withoutEmptyOptions hkey, said?, Option.filter_filter]
  simp only [Bool.and_self]

theorem exists_said_of_malformed (hmalformed : annotations.isMalformed key = true) :
    ∃ raw, annotations.said? key = some raw ∧ DeletionOptions.spelled? raw = none := by
  unfold isMalformed at hmalformed
  cases hsaid : annotations.said? key with
  | none =>
      rw [hsaid] at hmalformed
      exact absurd hmalformed Bool.false_ne_true
  | some raw =>
      rw [hsaid, Option.any_some] at hmalformed
      exact ⟨raw, rfl, Option.isNone_iff_eq_none.1 hmalformed⟩

end Annotations

namespace DeletionOptions

open Annotations (skipFinalSnapshotKey finalSnapshotKey deleteAutomatedBackupsKey deletionKeys)

variable {annotations others : Annotations} {key : String}

/-! ## One annotation -/

theorem truthAt_eq (annotations : Annotations) (key : String) :
    truthAt annotations key =
      match annotations.said? key with
      | none => .ok none
      | some raw => (truth key raw).map some :=
  rfl

theorem truthAt_congr (hsaid : others.said? key = annotations.said? key) :
    truthAt others key = truthAt annotations key := by
  rw [truthAt_eq, hsaid, ← truthAt_eq]

theorem truthAt_of_malformed (hmalformed : annotations.isMalformed key = true) :
    ∃ raw, annotations.get? key = some raw ∧
      truthAt annotations key = .error (malformed key raw) := by
  obtain ⟨raw, hsaid, hunspelled⟩ := Annotations.exists_said_of_malformed hmalformed
  refine ⟨raw, Annotations.get?_of_said hsaid, ?_⟩
  rw [truthAt_eq, hsaid]
  simp only [truth_eq, hunspelled]
  rfl

theorem truthAt_of_not_malformed (hwell : annotations.isMalformed key = false) :
    truthAt annotations key = .ok (annotations.truth? key) := by
  unfold Annotations.isMalformed at hwell
  rw [truthAt_eq, Annotations.truth?]
  cases hsaid : annotations.said? key with
  | none => rfl
  | some raw =>
      rw [hsaid, Option.any_some] at hwell
      cases hspelled : spelled? raw with
      | none =>
          rw [hspelled] at hwell
          exact absurd hwell (by simp)
      | some b =>
          simp only [truth_eq, hspelled, Option.bind_some]
          rfl

/-! ## All options -/

theorem ofAnnotations_of_malformed (hfirst : annotations.firstMalformed? = some key) :
    ∃ raw, annotations.get? key = some raw ∧
      ofAnnotations annotations = .error (malformed key raw) := by
  unfold Annotations.firstMalformed? at hfirst
  unfold ofAnnotations
  rw [List.find?_cons] at hfirst
  split at hfirst
  · rename_i hskip
    obtain rfl := Option.some.inj hfirst
    obtain ⟨raw, hraw, hfails⟩ := truthAt_of_malformed hskip
    rw [hfails]
    exact ⟨raw, hraw, rfl⟩
  · rename_i hskip
    have hbackups : annotations.isMalformed key = true := List.find?_some hfirst
    have hkey : key = deleteAutomatedBackupsKey :=
      List.mem_singleton.1 (List.mem_of_find?_eq_some hfirst)
    obtain ⟨raw, hraw, hfails⟩ := truthAt_of_malformed hbackups
    rw [truthAt_of_not_malformed hskip, ← hkey, hfails]
    exact ⟨raw, hraw, rfl⟩

theorem ofAnnotations_of_wellFormed (hnone : annotations.firstMalformed? = none) :
    ofAnnotations annotations = .ok
      { skipFinalSnapshot := (annotations.truth? skipFinalSnapshotKey).getD true
        finalSnapshot := annotations.get? finalSnapshotKey
        deleteAutomatedBackups := annotations.truth? deleteAutomatedBackupsKey } := by
  have hwell : ∀ key ∈ [skipFinalSnapshotKey, deleteAutomatedBackupsKey],
      annotations.isMalformed key = false := by
    intro key hkey
    exact Bool.eq_false_iff.2 (List.find?_eq_none.1 hnone key hkey)
  have hskip := hwell skipFinalSnapshotKey (by simp)
  have hbackups := hwell deleteAutomatedBackupsKey (by simp)
  unfold ofAnnotations
  rw [truthAt_of_not_malformed hskip, truthAt_of_not_malformed hbackups]
  rfl

theorem finalSnapshot_of_ofAnnotations {options : DeletionOptions}
    (hoptions : ofAnnotations annotations = .ok options) :
    options.finalSnapshot = annotations.get? finalSnapshotKey := by
  cases hfirst : annotations.firstMalformed? with
  | some key =>
      obtain ⟨raw, -, hfails⟩ := ofAnnotations_of_malformed hfirst
      rw [hfails] at hoptions
      exact absurd hoptions nofun
  | none =>
      rw [ofAnnotations_of_wellFormed hfirst] at hoptions
      rw [← Except.ok.inj hoptions]

/-- Only the name of the snapshot is read without regard to what is empty. -/
theorem ofAnnotations_of_said
    (hskip : others.said? skipFinalSnapshotKey = annotations.said? skipFinalSnapshotKey)
    (hbackups : others.said? deleteAutomatedBackupsKey =
      annotations.said? deleteAutomatedBackupsKey) :
    ofAnnotations others =
      (ofAnnotations annotations).map fun options =>
        { options with finalSnapshot := others.get? finalSnapshotKey } := by
  unfold ofAnnotations
  rw [truthAt_congr hskip, truthAt_congr hbackups]
  cases truthAt annotations skipFinalSnapshotKey with
  | error failure => rfl
  | ok skip =>
      cases truthAt annotations deleteAutomatedBackupsKey with
      | error failure => rfl
      | ok deleteBackups => rfl

theorem ofAnnotations_withoutEmptyOptions (annotations : Annotations) :
    ofAnnotations annotations.withoutEmptyOptions =
      (ofAnnotations annotations).map withoutEmptyName := by
  have hname : annotations.withoutEmptyOptions.get? finalSnapshotKey =
      annotations.said? finalSnapshotKey :=
    Annotations.get?_withoutEmptyOptions (by simp [deletionKeys])
  rw [ofAnnotations_of_said
    (Annotations.said?_withoutEmptyOptions (by simp [deletionKeys]))
    (Annotations.said?_withoutEmptyOptions (by simp [deletionKeys])), hname]
  cases hoptions : ofAnnotations annotations with
  | error failure => rfl
  | ok options =>
      rw [Except.map, Except.map, withoutEmptyName, finalSnapshot_of_ofAnnotations hoptions,
        Annotations.said?]

theorem ofAnnotations_congr
    (hsame : ∀ key ∈ deletionKeys, others.get? key = annotations.get? key) :
    ofAnnotations others = ofAnnotations annotations := by
  have hskip := Annotations.said?_congr (hsame skipFinalSnapshotKey (by simp [deletionKeys]))
  have hbackups :=
    Annotations.said?_congr (hsame deleteAutomatedBackupsKey (by simp [deletionKeys]))
  rw [ofAnnotations_of_said hskip hbackups, hsame finalSnapshotKey (by simp [deletionKeys])]
  cases hoptions : ofAnnotations annotations with
  | error failure => rfl
  | ok options => rw [Except.map, ← finalSnapshot_of_ofAnnotations hoptions]

theorem withoutEmptyName_eq_self_iff {options : DeletionOptions} :
    options.withoutEmptyName = options ↔ options.finalSnapshot ≠ some "" := by
  obtain ⟨skip, name, backups⟩ := options
  cases name with
  | none => simp [withoutEmptyName]
  | some name => simp [withoutEmptyName, Option.filter_eq_some_iff]

/-- An annotation about deletion that has an empty text is as good as none, with one exception: an
empty name of the final snapshot is a name.  Other annotations do not matter. -/
theorem empty_text_says_only_a_name (annotations : Annotations) :
    ofAnnotations annotations.withoutEmptyOptions =
        (ofAnnotations annotations).map withoutEmptyName ∧
      (ofAnnotations annotations.withoutEmptyOptions = ofAnnotations annotations ↔
        annotations.get? finalSnapshotKey ≠ some "" ∨
          ∃ failure, ofAnnotations annotations = .error failure) ∧
      ∀ others : Annotations, (∀ key ∈ deletionKeys, others.get? key = annotations.get? key) →
        ofAnnotations others = ofAnnotations annotations := by
  refine ⟨ofAnnotations_withoutEmptyOptions annotations, ?_, fun others => ofAnnotations_congr⟩
  rw [ofAnnotations_withoutEmptyOptions]
  cases hoptions : ofAnnotations annotations with
  | error failure => simp [Except.map]
  | ok options =>
      have hsame : (Except.ok options : Except Failure DeletionOptions).map withoutEmptyName =
          .ok options ↔ options.withoutEmptyName = options := by
        rw [Except.map, Except.ok.injEq]
      rw [hsame, withoutEmptyName_eq_self_iff, finalSnapshot_of_ofAnnotations hoptions]
      simp

/-- An empty name of the final snapshot is kept as a name. -/
theorem empty_name_is_kept :
    ofAnnotations (Table.ofList [(finalSnapshotKey, "")]) = .ok ⟨true, some "", none⟩ ∧
      ofAnnotations (Annotations.withoutEmptyOptions (Table.ofList [(finalSnapshotKey, "")])) ≠
        ofAnnotations (Table.ofList [(finalSnapshotKey, "")]) := by
  have hkept : ofAnnotations (Table.ofList [(finalSnapshotKey, "")]) =
      .ok ⟨true, some "", none⟩ := rfl
  have hremoved :
      ofAnnotations (Annotations.withoutEmptyOptions (Table.ofList [(finalSnapshotKey, "")])) =
        .ok ⟨true, none, none⟩ := rfl
  refine ⟨hkept, ?_⟩
  rw [hremoved, hkept]
  simp

end DeletionOptions
end DbSteward
