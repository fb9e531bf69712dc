import DbSteward.Proofs.Changes
import Mathlib.Data.Finset.Card
import Mathlib.Data.List.Induction

/-!
# Changes in order of insertion

Changes are a map from paths to differences that remembers in which order its paths came.  An
addition at a path that is there already takes the place of what it finds, and any other one goes
to the end.  So after any additions every path is listed once, where it was first added, and is
looked up with the values with which it was last added.
-/

namespace DbSteward

/-- Paths are listed in the order in which they first came. -/
structure ListsFirsts (listed came : List String) : Prop where
  mem_iff : ∀ path, path ∈ listed ↔ path ∈ came
  in_order : listed.Pairwise fun first later => came.idxOf first < came.idxOf later

namespace ListsFirsts

variable {listed came : List String} {path : String}

theorem nil : ListsFirsts [] [] :=
  ⟨fun _ => Iff.rfl, .nil⟩

theorem nodup (hlists : ListsFirsts listed came) : listed.Nodup := by
  refine hlists.in_order.imp fun hlt heq => ?_
  rw [heq] at hlt
  exact Nat.lt_irrefl _ hlt

/-- Where paths first came does not change when more paths come. -/
theorem in_order_concat (hlists : ListsFirsts listed came) (path : String) :
    listed.Pairwise fun first later =>
      (came ++ [path]).idxOf first < (came ++ [path]).idxOf later := by
  refine hlists.in_order.imp_of_mem fun hfirst hlater hlt => ?_
  rw [List.idxOf_append_of_mem ((hlists.mem_iff _).1 hfirst),
    List.idxOf_append_of_mem ((hlists.mem_iff _).1 hlater)]
  exact hlt

theorem again (hlists : ListsFirsts listed came) (hmem : path ∈ listed) :
    ListsFirsts listed (came ++ [path]) where
  mem_iff := by
    intro other
    rw [List.mem_append, List.mem_singleton, ← hlists.mem_iff]
    constructor
    · exact .inl
    · rintro (hother | rfl)
      · exact hother
      · exact hmem
  in_order := hlists.in_order_concat path

theorem first (hlists : ListsFirsts listed came) (hnew : path ∉ listed) :
    ListsFirsts (listed ++ [path]) (came ++ [path]) where
  mem_iff := by
    intro other
    rw [List.mem_append, List.mem_append, hlists.mem_iff]
  in_order := by
    rw [List.pairwise_append]
    refine ⟨hlists.in_order_concat path, List.pairwise_singleton .., ?_⟩
    intro earlier hearlier last hlast
    obtain rfl := List.mem_singleton.1 hlast
    have hcame : earlier ∈ came := (hlists.mem_iff earlier).1 hearlier
    have hnot : last ∉ came := fun hmem => hnew ((hlists.mem_iff last).2 hmem)
    rw [List.idxOf_append_of_mem hcame, List.idxOf_append_of_notMem hnot]
    exact (List.idxOf_lt_length_of_mem hcame).trans_le (Nat.le_add_right _ _)

end ListsFirsts

namespace Changes

/-! ## One addition -/

theorem map_path_place {d : Difference} {differences : List Difference}
    (hmem : d.path ∈ differences.map Difference.path) :
    (place d differences).map Difference.path = differences.map Difference.path := by
  induction differences with
  | nil => simp at hmem
  | cons e rest ih =>
      by_cases hsame : e.path = d.path
      · rw [place_of_same hsame, List.map_cons, List.map_cons, hsame]
      · have hrest : d.path ∈ rest.map Difference.path :=
          (List.mem_cons.1 hmem).resolve_left (Ne.symm hsame)
        rw [place_of_other hsame, List.map_cons, List.map_cons, ih hrest]

theorem find?_place (d : Difference) (differences : List Difference) (path : String) :
    (place d differences).find? (·.path == path) =
      if d.path = path then some d else differences.find? (·.path == path) := by
  induction differences with
  | nil => by_cases hpath : d.path = path <;> simp [place, hpath]
  | cons e rest ih =>
      by_cases hsame : e.path = d.path
      · rw [place_of_same hsame]
        by_cases hpath : d.path = path <;> simp [hsame, hpath]
      · rw [place_of_other hsame]
        by_cases hpath : e.path = path
        · have hother : d.path ≠ path := fun heq => hsame (hpath.trans heq.symm)
          simp [hpath, hother]
        · simp [hpath, ih]

variable {changes : Changes} {path : String}

theorem paths_record_of_mem (hmem : path ∈ changes.paths) (old new : Value) :
    (changes.record path old new).paths = changes.paths :=
  map_path_place (d := ⟨path, old, new⟩) hmem

theorem paths_record_of_not_mem (hnew : path ∉ changes.paths) (old new : Value) :
    (changes.record path old new).paths = changes.paths ++ [path] := by
  have hfresh : ∀ e ∈ changes.differences, e.path ≠ path := fun e hmem heq =>
    hnew (heq ▸ List.mem_map_of_mem hmem)
  rw [paths, record, place_eq_append (d := ⟨path, old, new⟩) hfresh, List.map_append]
  rfl

theorem at?_record (changes : Changes) (path other : String) (old new : Value) :
    (changes.record path old new).at? other =
      if path = other then some ⟨path, old, new⟩ else changes.at? other :=
  find?_place ⟨path, old, new⟩ changes.differences other

/-! ## Looking at changes -/

theorem size_eq_length_paths (changes : Changes) : changes.size = changes.paths.length :=
  (List.length_map ..).symm

theorem isWholesale_iff : changes.isWholesale = true ↔ "" ∈ changes.paths := by
  simp [isWholesale, paths, String.isEmpty_iff, List.any_eq_true]

/-- Where no path is listed twice, the differences are those that are looked up. -/
theorem mem_differences_iff (hnodup : changes.paths.Nodup) {d : Difference} :
    d ∈ changes.differences ↔ changes.at? d.path = some d := by
  constructor
  · intro hmem
    cases hfound : changes.at? d.path with
    | none =>
        have hnone := List.find?_eq_none.1 hfound d hmem
        simp at hnone
    | some e =>
        have hkey := List.find?_some hfound
        have hpath : e.path = d.path := beq_iff_eq.1 hkey
        have he : e ∈ changes.differences := List.mem_of_find?_eq_some hfound
        rw [List.inj_on_of_nodup_map hnodup he hmem hpath]
  · exact List.mem_of_find?_eq_some

/-! ## All additions -/

/-- What additions, one after the other, make of changes that are empty at first. -/
def ofAdditions (added : List Difference) : Changes :=
  added.foldl (fun changes d => changes.record d.path d.old d.new) empty

/-- The last addition at a path. -/
def lastAt? (path : String) (added : List Difference) : Option Difference :=
  (added.filter fun d => d.path == path).getLast?

theorem ofAdditions_concat (added : List Difference) (d : Difference) :
    ofAdditions (added ++ [d]) = (ofAdditions added).record d.path d.old d.new :=
  List.foldl_concat ..

theorem lastAt?_concat (path : String) (added : List Difference) (d : Difference) :
    lastAt? path (added ++ [d]) = if d.path = path then some d else lastAt? path added := by
  by_cases hpath : d.path = path <;> simp [lastAt?, List.filter_append, hpath]

theorem lastAt?_eq_none_iff {added : List Difference} :
    lastAt? path added = none ↔ path ∉ added.map Difference.path := by
  simp [lastAt?]

theorem listsFirsts_ofAdditions (added : List Difference) :
    ListsFirsts (ofAdditions added).paths (added.map Difference.path) := by
  induction added using List.reverseRecOn with
  | nil => exact .nil
  | append_singleton added d ih =>
      rw [ofAdditions_concat, List.map_append, List.map_singleton]
      by_cases hmem : d.path ∈ (ofAdditions added).paths
      · rw [paths_record_of_mem hmem]
        exact ih.again hmem
      · rw [paths_record_of_not_mem hmem]
        exact ih.first hmem

theorem at?_ofAdditions (added : List Difference) (path : String) :
    (ofAdditions added).at? path = lastAt? path added := by
  induction added using List.reverseRecOn with
  | nil => rfl
  | append_singleton added d ih =>
      rw [ofAdditions_concat, at?_record, lastAt?_concat, ih]

theorem size_ofAdditions (added : List Difference) :
    (ofAdditions added).size = (added.map Difference.path).toFinset.card := by
  have hlists := listsFirsts_ofAdditions added
  have hsame : (ofAdditions added).paths.toFinset = (added.map Difference.path).toFinset := by
    ext path
    rw [List.mem_toFinset, List.mem_toFinset, hlists.mem_iff]
  rw [size_eq_length_paths, ← List.toFinset_card_of_nodup hlists.nodup, hsame]

/-- Whatever is added, every path is listed once, in the order in which the paths were first added.
It is looked up as it was last added, and other paths are not found.  The differences are those that
are looked up, there are as many of them as there are different paths, and the changes are
wholesale exactly if the empty path was added. -/
theorem additions_kept_in_order (added : List Difference) :
    (ofAdditions added).paths.Nodup ∧
      ListsFirsts (ofAdditions added).paths (added.map Difference.path) ∧
      (∀ path, (ofAdditions added).at? path = lastAt? path added) ∧
      (∀ path, (ofAdditions added).at? path = none ↔ path ∉ added.map Difference.path) ∧
      (∀ d, d ∈ (ofAdditions added).differences ↔ (ofAdditions added).at? d.path = some d) ∧
      (ofAdditions added).size = (added.map Difference.path).toFinset.card ∧
      ((ofAdditions added).isWholesale = true ↔ "" ∈ added.map Difference.path) := by
  have hlists := listsFirsts_ofAdditions added
  refine ⟨hlists.nodup, hlists, at?_ofAdditions added, fun path => ?_,
    fun d => mem_differences_iff hlists.nodup, size_ofAdditions added, ?_⟩
  · rw [at?_ofAdditions, lastAt?_eq_none_iff]
  · rw [isWholesale_iff, hlists.mem_iff]

-- The port stays in front of the empty path, which was added between its two additions.
example : (ofAdditions [⟨"Spec.Port", .ofInteger none, .ofInteger (some 1)⟩,
      ⟨"", .object none, .object (some [])⟩,
      ⟨"Spec.Port", .ofInteger none, .ofInteger (some 2)⟩]).paths = ["Spec.Port", ""] := by
  decide

end Changes
end DbSteward
