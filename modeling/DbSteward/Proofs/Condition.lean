import DbSteward.Document.Condition
import Mathlib.Data.List.Nodup

/-!
# Laws of condition lists

Putting a condition touches the conditions of its kind and no others.  As long as a list has
at most one condition of each kind, which putting and clearing preserve, what is looked up
is all there is.
-/

namespace DbSteward
namespace Conditions

variable {conditions : List Condition}

/-- No two conditions are of the same kind. -/
def DistinctKinds (conditions : List Condition) : Prop :=
  (conditions.map Condition.kind).Nodup

instance (conditions : List Condition) : Decidable (DistinctKinds conditions) :=
  inferInstanceAs (Decidable (List.Nodup _))

theorem distinctKinds_nil : DistinctKinds [] :=
  List.nodup_nil

theorem kind_of_find? {kind : ConditionKind} {c : Condition}
    (hfound : find? conditions kind = some c) : c.kind = kind := by
  have hkind := List.find?_some hfound
  simpa using hkind

theorem find?_eq_some_iff (hdistinct : DistinctKinds conditions) {kind : ConditionKind}
    {c : Condition} :
    find? conditions kind = some c ↔ c ∈ conditions ∧ c.kind = kind := by
  constructor
  · intro hfound
    exact ⟨List.mem_of_find?_eq_some hfound, kind_of_find? hfound⟩
  · rintro ⟨hmem, rfl⟩
    cases hfound : find? conditions c.kind with
    | none =>
        have hnone := List.find?_eq_none.1 hfound c hmem
        simp at hnone
    | some d =>
        have hd := List.mem_of_find?_eq_some hfound
        rw [List.inj_on_of_nodup_map hdistinct hd hmem (kind_of_find? hfound)]

/-! ## Putting -/

section Put

variable (now : Moment) (kind : ConditionKind) (status : Bool) (message reason : Option String)

/-- A condition of the kind as it stands once it is put: the earlier one revised, or a new one. -/
def placed : Option Condition → Condition
  | none => ⟨kind, status, message, reason, now⟩
  | some c => c.revised now status message reason

theorem find?_cons_of_kind {c : Condition} (hkind : c.kind = kind) (rest : List Condition) :
    find? (c :: rest) kind = some c :=
  List.find?_cons_of_pos (by simp [hkind])

theorem find?_cons_of_ne {c : Condition} (hkind : c.kind ≠ kind) (rest : List Condition) :
    find? (c :: rest) kind = find? rest kind :=
  List.find?_cons_of_neg (by simp [hkind])

theorem find?_put_self (conditions : List Condition) :
    find? (put now kind status message reason conditions) kind =
      some (placed now kind status message reason (find? conditions kind)) := by
  induction conditions with
  | nil => exact find?_cons_of_kind kind rfl []
  | cons c rest ih =>
      unfold put
      split
      · rename_i hkind
        have hrevised : (c.revised now status message reason).kind = kind := hkind
        rw [find?_cons_of_kind kind hkind, find?_cons_of_kind kind hrevised, placed]
      · rename_i hkind
        rw [find?_cons_of_ne kind hkind, find?_cons_of_ne kind hkind, ih]

theorem find?_put_of_ne {other : ConditionKind} (hne : kind ≠ other)
    (conditions : List Condition) :
    find? (put now kind status message reason conditions) other = find? conditions other := by
  induction conditions with
  | nil => exact find?_cons_of_ne other hne []
  | cons c rest ih =>
      unfold put
      split
      · rename_i hkind
        have hother : c.kind ≠ other := fun h => hne (hkind.symm.trans h)
        have hrevised : (c.revised now status message reason).kind ≠ other := hother
        rw [find?_cons_of_ne other hother, find?_cons_of_ne other hrevised]
      · by_cases hother : c.kind = other
        · rw [find?_cons_of_kind other hother, find?_cons_of_kind other hother]
        · rw [find?_cons_of_ne other hother, find?_cons_of_ne other hother, ih]

/-- A condition that keeps its status keeps its moment. -/
theorem since_placed {c : Condition}
    (hsame : (placed now kind status message reason (some c)).status = c.status) :
    (placed now kind status message reason (some c)).since = c.since :=
  if_pos (beq_iff_eq.2 hsame.symm)

theorem mem_kinds_put {other : ConditionKind}
    (hmem : other ∈ (put now kind status message reason conditions).map Condition.kind) :
    other = kind ∨ other ∈ conditions.map Condition.kind := by
  induction conditions with
  | nil => exact .inl (List.mem_singleton.1 hmem)
  | cons c rest ih =>
      unfold put at hmem
      split at hmem
      · exact .inr hmem
      · rcases List.mem_cons.1 hmem with rfl | hrest
        · exact .inr (List.mem_cons_self ..)
        · exact (ih hrest).imp_right (List.mem_cons_of_mem _)

theorem DistinctKinds.put (hdistinct : DistinctKinds conditions) :
    DistinctKinds (put now kind status message reason conditions) := by
  induction conditions with
  | nil => exact List.nodup_singleton _
  | cons c rest ih =>
      obtain ⟨hnot, hrest⟩ := List.nodup_cons.1 hdistinct
      unfold Conditions.put
      split
      · exact hdistinct
      · rename_i hkind
        refine List.nodup_cons.2 ⟨fun hmem => ?_, ih hrest⟩
        rcases mem_kinds_put now kind status message reason hmem with hself | hold
        · exact hkind hself
        · exact hnot hold

end Put

/-! ## The two kinds -/

theorem find?_putSynced_synced (now : Moment) (status : Bool) (message : Option String)
    (conditions : List Condition) :
    find? (putSynced now status message conditions) .synced =
      some (placed now .synced status message none (find? conditions .synced)) :=
  find?_put_self ..

@[simp] theorem find?_putSynced_terminal (now : Moment) (status : Bool)
    (message : Option String) (conditions : List Condition) :
    find? (putSynced now status message conditions) .terminal = find? conditions .terminal :=
  find?_put_of_ne now .synced status message none (by decide) conditions

theorem find?_putTerminal_terminal (now : Moment) (message : String)
    (conditions : List Condition) :
    find? (putTerminal now message conditions) .terminal =
      some (placed now .terminal true (some message) none (find? conditions .terminal)) :=
  find?_put_self ..

@[simp] theorem find?_putTerminal_synced (now : Moment) (message : String)
    (conditions : List Condition) :
    find? (putTerminal now message conditions) .synced = find? conditions .synced :=
  find?_put_of_ne now .terminal true (some message) none (by decide) conditions

@[simp] theorem find?_clearTerminal_terminal (conditions : List Condition) :
    find? (clearTerminal conditions) .terminal = none := by
  refine List.find?_eq_none.2 fun c hmem => ?_
  simpa using (List.mem_filter.1 hmem).2

@[simp] theorem find?_clearTerminal_synced (conditions : List Condition) :
    find? (clearTerminal conditions) .synced = find? conditions .synced := by
  rw [find?, clearTerminal, List.find?_filter]
  congr 1
  funext c
  cases c.kind <;> rfl

theorem DistinctKinds.clearTerminal (hdistinct : DistinctKinds conditions) :
    DistinctKinds (clearTerminal conditions) :=
  hdistinct.sublist (List.filter_sublist.map _)

end Conditions
end DbSteward
