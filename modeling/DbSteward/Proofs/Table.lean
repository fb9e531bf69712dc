import DbSteward.Proofs.Naming
import DbSteward.Table
import Mathlib.Data.List.Induction

/-!
# Tables and their entries

A table is its entries, and its keys are told apart.  Made from a list of entries, a table holds
the last one for every key; so the table of its own entries is the table itself.
-/

namespace DbSteward
namespace Table

variable {α : Type}

theorem ext_entries {left right : Table α} (heq : left.entries = right.entries) :
    left = right := by
  obtain ⟨_, _⟩ := left
  obtain ⟨_, _⟩ := right
  cases heq
  rfl

theorem nodup_keys (table : Table α) : (table.entries.map Prod.fst).Nodup := by
  rw [List.Nodup, List.pairwise_map]
  exact table.ascending.imp fun hlt => String.ne_of_lt hlt

theorem get?_of_entries_nil {table : Table α} (hentries : table.entries = []) (key : String) :
    table.get? key = none := by
  rw [get?, hentries]
  rfl

theorem contains_iff {table : Table α} {key : String} :
    table.contains key = true ↔ ∃ value, table.get? key = some value := by
  rw [contains, Option.isSome_iff_exists]

theorem contains_eq_false_iff {table : Table α} {key : String} :
    table.contains key = false ↔ table.get? key = none := by
  rw [contains, Option.isSome_eq_false_iff, Option.isNone_iff_eq_none]

theorem entries_erase_head {table : Table α} {head : String × α} {rest : List (String × α)}
    (hentries : table.entries = head :: rest) : (table.erase head.1).entries = rest := by
  have hlater : ∀ entry ∈ rest, head.1 < entry.1 :=
    (List.pairwise_cons.1 (hentries ▸ table.ascending)).1
  have hkept : rest.filter (fun entry => entry.1 != head.1) = rest := by
    refine List.filter_eq_self.2 fun entry hmem => ?_
    rw [bne_iff_ne]
    exact (String.ne_of_lt (hlater entry hmem)).symm
  have hfiltered : (table.erase head.1).entries =
      table.entries.filter fun entry => entry.1 != head.1 := rfl
  rw [hfiltered, hentries, List.filter_cons, hkept]
  simp

/-! ## Tables of lists -/

/-- Of several entries for one key the last one stays. -/
theorem get?_ofList (entries : List (String × α)) (key : String) :
    (ofList entries).get? key = (entries.reverse.find? fun entry => entry.1 == key).map (·.2) := by
  induction entries using List.reverseRecOn with
  | nil => rfl
  | append_singleton entries last ih =>
      have hlast : ofList (entries ++ [last]) = (ofList entries).insert last.1 last.2 := by
        rw [ofList, List.foldl_append]
        rfl
      rw [hlast, get?_insert, ih, List.reverse_append, List.reverse_singleton,
        List.singleton_append, List.find?_cons]
      by_cases hkey : last.1 = key
      · simp [hkey]
      · simp [beq_eq_false_iff_ne.2 hkey, Ne.symm hkey]

/-- Of several items with one name, a table of items holds what the last one says. -/
theorem get?_ofList_map {β : Type} (name : β → String) (value : β → α) (items : List β)
    (key : String) :
    (ofList (items.map fun item => (name item, value item))).get? key =
      (items.reverse.find? fun item => name item == key).map value := by
  rw [get?_ofList, ← List.map_reverse, List.find?_map, Option.map_map]
  rfl

theorem mem_of_mem_ofList {entries : List (String × α)} {entry : String × α}
    (hmem : entry ∈ (ofList entries).entries) : entry ∈ entries := by
  have hget : (ofList entries).get? entry.1 = some entry.2 := get?_eq_some_iff.2 hmem
  rw [get?_ofList] at hget
  obtain ⟨found, hfound, hvalue⟩ := Option.map_eq_some_iff.1 hget
  have hkey := List.find?_some hfound
  rw [← Prod.ext (beq_iff_eq.1 hkey) hvalue]
  exact List.mem_reverse.1 (List.mem_of_find?_eq_some hfound)

theorem mem_keys_ofList_iff {entries : List (String × α)} {key : String} :
    key ∈ (ofList entries).entries.map Prod.fst ↔ key ∈ entries.map Prod.fst := by
  rw [← not_iff_not, ← Named.lookup_eq_none_iff, ← get?, get?_ofList, Option.map_eq_none_iff,
    List.find?_eq_none]
  simp only [List.mem_reverse, beq_iff_eq, List.mem_map, not_exists, not_and]

theorem get?_ofList_of_mem {entries : List (String × α)} {key : String} {value : α}
    (hkeys : (entries.map Prod.fst).Nodup) (hmem : (key, value) ∈ entries) :
    (ofList entries).get? key = some value := by
  rw [get?_ofList]
  cases hfind : entries.reverse.find? fun entry => entry.1 == key with
  | none =>
      have hnone := List.find?_eq_none.1 hfind (key, value) (List.mem_reverse.2 hmem)
      simp at hnone
  | some found =>
      have hfound : found ∈ entries := List.mem_reverse.1 (List.mem_of_find?_eq_some hfind)
      have hkey := List.find?_some hfind
      rw [List.inj_on_of_nodup_map hkeys hfound hmem (beq_iff_eq.1 hkey), Option.map_some]

theorem ofList_entries (table : Table α) : ofList table.entries = table := by
  apply ext_get?
  intro key
  apply Option.ext
  intro value
  have hheld : table.get? key = some value ↔ (key, value) ∈ table.entries := get?_eq_some_iff
  rw [hheld]
  constructor
  · intro hget
    exact mem_of_mem_ofList (get?_eq_some_iff.1 hget)
  · intro hmem
    exact get?_ofList_of_mem table.nodup_keys hmem

end Table
end DbSteward
