/-!
# Tables keyed by text

A finite map from texts, held as its entries in ascending order of the keys by
code point.  The order is part of the type, so two tables with the same lookups
are the same table (`Table.ext_get?`).
-/

namespace DbSteward

/-- A finite map from texts, its entries in ascending order of the keys. -/
structure Table (α : Type) where
  entries : List (String × α)
  ascending : entries.Pairwise fun a b => a.1 < b.1
  deriving DecidableEq

namespace Table

variable {α β : Type}

/-- Writes a value at a key of an ascending list of entries, over the value that
is there. -/
def put (key : String) (value : α) : List (String × α) → List (String × α)
  | [] => [(key, value)]
  | entry :: rest =>
      if key < entry.1 then (key, value) :: entry :: rest
      else if key = entry.1 then (key, value) :: rest
      else entry :: put key value rest

theorem fst_mem_put {key : String} {value : α} {entries : List (String × α)}
    {entry : String × α} (hmem : entry ∈ put key value entries) :
    entry.1 = key ∨ entry ∈ entries := by
  induction entries with
  | nil =>
      simp only [put, List.mem_singleton] at hmem
      simp [hmem]
  | cons head rest ih =>
      unfold put at hmem
      split at hmem
      · rcases List.mem_cons.1 hmem with rfl | htail
        · exact .inl rfl
        · exact .inr htail
      · split at hmem
        · rcases List.mem_cons.1 hmem with rfl | htail
          · exact .inl rfl
          · exact .inr (List.mem_cons_of_mem _ htail)
        · rcases List.mem_cons.1 hmem with rfl | htail
          · exact .inr (List.mem_cons_self ..)
          · exact (ih htail).imp_right (List.mem_cons_of_mem _)

theorem put_ascending (key : String) (value : α) {entries : List (String × α)}
    (hasc : entries.Pairwise fun a b => a.1 < b.1) :
    (put key value entries).Pairwise fun a b => a.1 < b.1 := by
  induction entries with
  | nil => simp [put]
  | cons head rest ih =>
      have hhead := (List.pairwise_cons.1 hasc).1
      have hrest := (List.pairwise_cons.1 hasc).2
      unfold put
      split
      · rename_i hlt
        refine List.pairwise_cons.2 ⟨fun entry hmem => ?_, hasc⟩
        rcases List.mem_cons.1 hmem with rfl | htail
        · exact hlt
        · exact String.lt_trans hlt (hhead entry htail)
      · split
        · rename_i heq
          exact List.pairwise_cons.2 ⟨fun entry hmem => heq ▸ hhead entry hmem, hrest⟩
        · rename_i hnlt hne
          refine List.pairwise_cons.2 ⟨fun entry hmem => ?_, ih hrest⟩
          rcases fst_mem_put hmem with heq | hold
          · have hle : head.1 ≤ key := String.not_lt.1 hnlt
            have hnle : ¬ key ≤ head.1 := fun hge => hne (String.le_antisymm hge hle)
            exact heq ▸ String.not_le.1 hnle
          · exact hhead entry hold

def empty : Table α :=
  ⟨[], .nil⟩

instance : EmptyCollection (Table α) :=
  ⟨empty⟩

instance : Inhabited (Table α) :=
  ⟨empty⟩

def get? (table : Table α) (key : String) : Option α :=
  table.entries.lookup key

def contains (table : Table α) (key : String) : Bool :=
  (table.get? key).isSome

def isEmpty (table : Table α) : Bool :=
  table.entries.isEmpty

def insert (table : Table α) (key : String) (value : α) : Table α :=
  ⟨put key value table.entries, put_ascending key value table.ascending⟩

/-- The table of a list of entries; of several entries for one key the last one
stays. -/
def ofList (entries : List (String × α)) : Table α :=
  entries.foldl (fun table entry => table.insert entry.1 entry.2) empty

def filter (keep : String → α → Bool) (table : Table α) : Table α :=
  ⟨table.entries.filter fun entry => keep entry.1 entry.2,
    table.ascending.sublist List.filter_sublist⟩

def erase (table : Table α) (key : String) : Table α :=
  table.filter fun other _ => other != key

private theorem lookup_cons_ite (key : String) (head : String × α)
    (rest : List (String × α)) :
    (head :: rest).lookup key = if key = head.1 then some head.2 else rest.lookup key := by
  rw [List.lookup_cons]
  by_cases h : key = head.1
  · simp [h]
  · rw [beq_eq_false_iff_ne.2 h]
    simp [h]

theorem lookup_put (key other : String) (value : α) (entries : List (String × α)) :
    (put key value entries).lookup other =
      if other = key then some value else entries.lookup other := by
  induction entries with
  | nil =>
      rw [put, lookup_cons_ite]
  | cons head rest ih =>
      unfold put
      split
      · rw [lookup_cons_ite]
      · split
        · rename_i heq
          rw [lookup_cons_ite, lookup_cons_ite, ← heq]
          by_cases h : other = key <;> simp [h]
        · rename_i hne
          rw [lookup_cons_ite, lookup_cons_ite, ih]
          by_cases h : other = key
          · subst h
            simp [hne]
          · simp [h]

@[simp] theorem get?_empty (key : String) : (empty : Table α).get? key = none := rfl

@[simp] theorem get?_insert (table : Table α) (key other : String) (value : α) :
    (table.insert key value).get? other =
      if other = key then some value else table.get? other :=
  lookup_put key other value table.entries

theorem lookup_eq_some_iff {entries : List (String × α)} {key : String} {value : α}
    (hasc : entries.Pairwise fun a b => a.1 < b.1) :
    entries.lookup key = some value ↔ (key, value) ∈ entries := by
  induction entries with
  | nil => simp
  | cons head rest ih =>
      have hhead := (List.pairwise_cons.1 hasc).1
      rw [lookup_cons_ite, List.mem_cons]
      by_cases h : key = head.1
      · subst h
        have hnot : (head.1, value) ∉ rest := fun hmem =>
          String.lt_irrefl _ (hhead (head.1, value) hmem)
        simp [hnot, Prod.ext_iff, eq_comm]
      · simp [h, ih (List.pairwise_cons.1 hasc).2, Prod.ext_iff]

theorem get?_eq_some_iff {table : Table α} {key : String} {value : α} :
    table.get? key = some value ↔ (key, value) ∈ table.entries :=
  lookup_eq_some_iff table.ascending

private theorem entries_eq_of_mem_iff {left right : List (String × α)}
    (hleft : left.Pairwise fun a b => a.1 < b.1)
    (hright : right.Pairwise fun a b => a.1 < b.1)
    (hmem : ∀ entry, entry ∈ left ↔ entry ∈ right) : left = right := by
  induction left generalizing right with
  | nil =>
      cases right with
      | nil => rfl
      | cons head rest => exact absurd ((hmem head).2 (List.mem_cons_self ..)) (by simp)
  | cons a left ih =>
      cases right with
      | nil => exact absurd ((hmem a).1 (List.mem_cons_self ..)) (by simp)
      | cons b right =>
          have ha := (List.pairwise_cons.1 hleft).1
          have hb := (List.pairwise_cons.1 hright).1
          have hab : a = b := by
            rcases List.mem_cons.1 ((hmem a).1 (List.mem_cons_self ..)) with h | hin
            · exact h
            · rcases List.mem_cons.1 ((hmem b).2 (List.mem_cons_self ..)) with h | hin'
              · exact h.symm
              · exact absurd (ha b hin') (String.lt_asymm (hb a hin))
          subst hab
          have hrest : left = right := by
            apply ih (List.pairwise_cons.1 hleft).2 (List.pairwise_cons.1 hright).2
            intro entry
            have hiff := hmem entry
            simp only [List.mem_cons] at hiff
            constructor
            · intro hin
              rcases hiff.1 (.inr hin) with rfl | h
              · exact absurd (ha entry hin) (String.lt_irrefl _)
              · exact h
            · intro hin
              rcases hiff.2 (.inr hin) with rfl | h
              · exact absurd (hb entry hin) (String.lt_irrefl _)
              · exact h
          rw [hrest]

theorem ext_get? {left right : Table α} (h : ∀ key, left.get? key = right.get? key) :
    left = right := by
  have hentries : left.entries = right.entries := by
    apply entries_eq_of_mem_iff left.ascending right.ascending
    rintro ⟨key, value⟩
    rw [← get?_eq_some_iff, h, get?_eq_some_iff]
  cases left
  cases right
  simpa using hentries

theorem get?_filter (keep : String → α → Bool) (table : Table α) (key : String) :
    (table.filter keep).get? key = (table.get? key).filter (keep key) := by
  apply Option.ext
  intro value
  rw [get?_eq_some_iff, filter, List.mem_filter, Option.filter_eq_some_iff, get?_eq_some_iff]

@[simp] theorem get?_erase (table : Table α) (key other : String) :
    (table.erase key).get? other = if other = key then none else table.get? other := by
  unfold erase
  rw [get?_filter]
  by_cases h : other = key
  · simp [h]
  · cases table.get? other <;> simp [h]

theorem isEmpty_iff {table : Table α} : table.isEmpty = true ↔ table = empty := by
  cases table with
  | mk entries hasc => cases entries <;> simp [isEmpty, empty]

end Table
end DbSteward
