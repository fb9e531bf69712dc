import DbSteward.Proofs.Batch
import DbSteward.Proofs.Table

/-!
# Edits of overrides, change by change

An edit is a list of changes, resets first and then writes, no parameter twice.  Carried out
up to some change on the overrides that it was computed for, it leaves exactly the later
changes to be done, and once there are none left the overrides are the desired ones.
-/

namespace DbSteward

namespace Overrides

inductive Change where
  | reset (name : String)
  | write (name : String) (value : Option String)
  deriving DecidableEq

namespace Change

def name : Change → String
  | .reset name => name
  | .write name _ => name

def applyTo : Change → Overrides → Overrides
  | .reset name, live => live.erase name
  | .write name value, live => live.insert name value

end Change

/-- The overrides after some changes. -/
def after (live : Overrides) (changes : List Change) : Overrides :=
  changes.foldl (fun live change => change.applyTo live) live

namespace Edit

def resetChanges (edit : Edit) : List Change :=
  edit.resets.entries.map fun entry => .reset entry.1

def writeChanges (edit : Edit) : List Change :=
  edit.writes.entries.map fun entry => .write entry.1 entry.2

def changes (edit : Edit) : List Change :=
  edit.resetChanges ++ edit.writeChanges

/-- The changes in the batches in which they are sent. -/
def batches (limit : Nat) (edit : Edit) : List (List Change) :=
  DbSteward.batches limit edit.resetChanges ++ DbSteward.batches limit edit.writeChanges

theorem flatten_batches (limit : Nat) (edit : Edit) :
    (edit.batches limit).flatten = edit.changes := by
  rw [batches, List.flatten_append, DbSteward.flatten_batches, DbSteward.flatten_batches, changes]

end Edit

variable {desired live : Overrides}

theorem get?_writes (desired live : Overrides) (name : String) :
    (edit desired live).writes.get? name =
      (desired.get? name).filter fun value => live.get? name != some value :=
  Table.get?_filter _ desired name

theorem get?_resets (desired live : Overrides) (name : String) :
    (edit desired live).resets.get? name =
      (live.get? name).filter fun _ => !desired.contains name :=
  Table.get?_filter _ live name

/-! ## One change -/

theorem resets_of_reset {name : String} :
    (edit desired (live.erase name)).resets = (edit desired live).resets.erase name := by
  apply Table.ext_get?
  intro other
  rw [get?_resets, Table.get?_erase, Table.get?_erase, get?_resets]
  by_cases hsame : other = name
  · simp [hsame]
  · simp [hsame]

theorem writes_of_reset {name : String} (hundesired : desired.get? name = none) :
    (edit desired (live.erase name)).writes = (edit desired live).writes := by
  apply Table.ext_get?
  intro other
  rw [get?_writes, get?_writes, Table.get?_erase]
  by_cases hsame : other = name
  · simp [hsame, hundesired]
  · simp [hsame]

theorem resets_of_write {name : String} {value : Option String}
    (hdesired : desired.get? name = some value) :
    (edit desired (live.insert name value)).resets = (edit desired live).resets := by
  apply Table.ext_get?
  intro other
  rw [get?_resets, get?_resets, Table.get?_insert]
  by_cases hsame : other = name
  · simp [hsame, Table.contains, hdesired]
  · simp [hsame]

theorem writes_of_write {name : String} {value : Option String}
    (hdesired : desired.get? name = some value) :
    (edit desired (live.insert name value)).writes = (edit desired live).writes.erase name := by
  apply Table.ext_get?
  intro other
  rw [get?_writes, Table.get?_insert, Table.get?_erase, get?_writes]
  by_cases hsame : other = name
  · simp [hsame, hdesired]
  · simp [hsame]

theorem undesired_of_resets {entry : String × Option String}
    (hmem : entry ∈ (edit desired live).resets.entries) : desired.get? entry.1 = none := by
  have hgone := (List.mem_filter.1 hmem).2
  simpa [Table.contains] using hgone

theorem desired_of_writes {entry : String × Option String}
    (hmem : entry ∈ (edit desired live).writes.entries) :
    desired.get? entry.1 = some entry.2 :=
  Table.get?_eq_some_iff.2 (List.mem_filter.1 hmem).1

theorem changes_applyTo {change : Change} {rest : List Change}
    (hchanges : (edit desired live).changes = change :: rest) :
    (edit desired (change.applyTo live)).changes = rest := by
  unfold Edit.changes Edit.resetChanges Edit.writeChanges at hchanges ⊢
  -- Resets come first, so a write is the first change only if no reset is left.
  cases hresets : (edit desired live).resets.entries with
  | cons head tail =>
      have hundesired : desired.get? head.1 = none :=
        undesired_of_resets (hresets ▸ List.mem_cons_self ..)
      rw [hresets, List.map_cons, List.cons_append] at hchanges
      obtain ⟨rfl, rfl⟩ := List.cons.inj hchanges
      rw [Change.applyTo, resets_of_reset, writes_of_reset hundesired,
        Table.entries_erase_head hresets]
  | nil =>
      rw [hresets, List.map_nil, List.nil_append] at hchanges
      cases hwrites : (edit desired live).writes.entries with
      | nil => simp [hwrites] at hchanges
      | cons head tail =>
          have hdesired : desired.get? head.1 = some head.2 :=
            desired_of_writes (hwrites ▸ List.mem_cons_self ..)
          rw [hwrites, List.map_cons] at hchanges
          obtain ⟨rfl, rfl⟩ := List.cons.inj hchanges
          rw [Change.applyTo, resets_of_write hdesired, writes_of_write hdesired, hresets,
            Table.entries_erase_head hwrites]
          rfl

/-! ## All changes -/

theorem changes_after {made rest : List Change}
    (hchanges : (edit desired live).changes = made ++ rest) :
    (edit desired (live.after made)).changes = rest := by
  induction made generalizing live with
  | nil => exact hchanges
  | cons change made ih => exact ih (changes_applyTo hchanges)

theorem eq_of_changes_nil (hchanges : (edit desired live).changes = []) : live = desired := by
  obtain ⟨hresets, hwrites⟩ := List.append_eq_nil_iff.1 hchanges
  have hnoResets := Table.get?_of_entries_nil (List.map_eq_nil_iff.1 hresets)
  have hnoWrites := Table.get?_of_entries_nil (List.map_eq_nil_iff.1 hwrites)
  apply Table.ext_get?
  intro name
  have hreset := hnoResets name
  have hwrite := hnoWrites name
  rw [get?_resets] at hreset
  rw [get?_writes] at hwrite
  cases hdesired : desired.get? name with
  | none =>
      cases hlive : live.get? name with
      | none => rfl
      | some value => simp [hlive, Table.contains, hdesired] at hreset
  | some value =>
      rw [hdesired] at hwrite
      simpa using hwrite

/-- The observed overrides become the desired ones by the changes of the edit. -/
theorem after_changes (desired observed : Overrides) :
    observed.after (edit desired observed).changes = desired :=
  eq_of_changes_nil (changes_after (List.append_nil _).symm)

theorem nodup_changes (desired live : Overrides) :
    ((edit desired live).changes.map Change.name).Nodup := by
  have hresets : (edit desired live).resetChanges.map Change.name =
      (edit desired live).resets.entries.map (·.1) := by
    rw [Edit.resetChanges, List.map_map]
    rfl
  have hwrites : (edit desired live).writeChanges.map Change.name =
      (edit desired live).writes.entries.map (·.1) := by
    rw [Edit.writeChanges, List.map_map]
    rfl
  rw [Edit.changes, List.map_append, hresets, hwrites]
  refine List.Nodup.append (Table.nodup_keys _) (Table.nodup_keys _) ?_
  intro name hreset hwrite
  obtain ⟨old, hold, rfl⟩ := List.mem_map.1 hreset
  obtain ⟨new, hnew, hsame⟩ := List.mem_map.1 hwrite
  have hundesired := undesired_of_resets hold
  rw [← hsame, desired_of_writes hnew] at hundesired
  simp at hundesired

theorem isEmpty_iff_changes {edit : Edit} : edit.isEmpty = true ↔ edit.changes = [] := by
  simp [Edit.isEmpty, Edit.changes, Edit.resetChanges, Edit.writeChanges, Table.isEmpty,
    and_comm]

end Overrides
end DbSteward
