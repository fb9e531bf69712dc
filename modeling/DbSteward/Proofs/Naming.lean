import Mathlib.Data.List.Nodup

/-!
# Named values

A list of values with names, in which the first value of a name is the one that counts.  Where
the names are told apart, looking a name up and being in the list are the same.  Rewriting the
value of a name reaches no other name.
-/

namespace DbSteward
namespace Named

variable {α : Type}

theorem lookup_cons (name key : String) (value : α) (rest : List (String × α)) :
    ((name, value) :: rest).lookup key = if key = name then some value else rest.lookup key := by
  rw [List.lookup_cons]
  by_cases hkey : key = name
  · rw [if_pos hkey, beq_iff_eq.2 hkey]
  · rw [if_neg hkey, beq_eq_false_iff_ne.2 hkey]

theorem lookup_of_mem {values : List (String × α)} {name : String} {value : α}
    (hnames : (values.map Prod.fst).Nodup) (hmem : (name, value) ∈ values) :
    values.lookup name = some value := by
  induction values with
  | nil => cases hmem
  | cons head rest ih =>
      obtain ⟨hfresh, hrest⟩ := List.nodup_cons.1 hnames
      rw [lookup_cons]
      rcases List.mem_cons.1 hmem with rfl | htail
      · rw [if_pos rfl]
      · have hne : name ≠ head.1 := fun heq =>
          hfresh (heq ▸ List.mem_map_of_mem (f := Prod.fst) htail)
        rw [if_neg hne]
        exact ih hrest htail

theorem mem_of_lookup {values : List (String × α)} {name : String} {value : α}
    (hlookup : values.lookup name = some value) : (name, value) ∈ values := by
  obtain ⟨before, after, rfl, -⟩ := List.lookup_eq_some_iff.1 hlookup
  exact List.mem_append_right _ (List.mem_cons_self ..)

theorem lookup_eq_none_iff {values : List (String × α)} {name : String} :
    values.lookup name = none ↔ name ∉ values.map Prod.fst := by
  rw [List.lookup_eq_none_iff]
  constructor
  · intro hother hmem
    obtain ⟨entry, hentry, rfl⟩ := List.mem_map.1 hmem
    simpa using hother entry hentry
  · intro hnot entry hentry
    rw [bne_iff_ne]
    rintro rfl
    exact hnot (List.mem_map_of_mem hentry)

/-- Changes the first value of a name; where there is none, one made from `missing` is added. -/
def rewrite (name : String) (change : α → α) (missing : α) :
    List (String × α) → List (String × α)
  | [] => [(name, change missing)]
  | (other, value) :: rest =>
      if name = other then (other, change value) :: rest
      else (other, value) :: rewrite name change missing rest

section Rewrite

variable {name : String} {change : α → α} {missing : α}

theorem lookup_rewrite_self (values : List (String × α)) :
    (rewrite name change missing values).lookup name =
      some (change ((values.lookup name).getD missing)) := by
  induction values with
  | nil => rw [rewrite, lookup_cons, if_pos rfl, List.lookup_nil, Option.getD_none]
  | cons head rest ih =>
      obtain ⟨other, value⟩ := head
      rw [rewrite, lookup_cons]
      split
      · rename_i hname
        rw [lookup_cons, if_pos hname, Option.getD_some]
      · rename_i hname
        rw [lookup_cons, if_neg hname, ih]

theorem lookup_rewrite_of_ne {key : String} (hne : key ≠ name) (values : List (String × α)) :
    (rewrite name change missing values).lookup key = values.lookup key := by
  induction values with
  | nil => rw [rewrite, lookup_cons, if_neg hne]
  | cons head rest ih =>
      obtain ⟨other, value⟩ := head
      rw [rewrite, lookup_cons]
      split
      · rename_i hname
        rw [lookup_cons, if_neg (hname ▸ hne), if_neg (hname ▸ hne)]
      · rw [lookup_cons, ih]

theorem mem_names_rewrite {key : String} {values : List (String × α)}
    (hmem : key ∈ (rewrite name change missing values).map Prod.fst) :
    key = name ∨ key ∈ values.map Prod.fst := by
  by_cases hne : key = name
  · exact .inl hne
  · refine .inr (Classical.not_not.1 fun hnot => ?_)
    rw [← lookup_eq_none_iff, ← lookup_rewrite_of_ne hne, lookup_eq_none_iff] at hnot
    exact hnot hmem

theorem nodup_names_rewrite {values : List (String × α)}
    (hnames : (values.map Prod.fst).Nodup) :
    ((rewrite name change missing values).map Prod.fst).Nodup := by
  induction values with
  | nil => simp [rewrite]
  | cons head rest ih =>
      obtain ⟨other, value⟩ := head
      obtain ⟨hfresh, hrest⟩ := List.nodup_cons.1 hnames
      rw [rewrite]
      split
      · exact hnames
      · rename_i hname
        refine List.nodup_cons.2 ⟨fun hmem => ?_, ih hrest⟩
        rcases mem_names_rewrite hmem with heq | hold
        · exact hname heq.symm
        · exact hfresh hold

end Rewrite

/-- Two lists hold the same under all names but one, and names told apart stay so. -/
structure SameBut (name : String) (before after : List (String × α)) : Prop where
  others : ∀ other, other ≠ name → after.lookup other = before.lookup other
  nodup : (before.map Prod.fst).Nodup → (after.map Prod.fst).Nodup

theorem sameBut_refl (name : String) (values : List (String × α)) : SameBut name values values :=
  ⟨fun _ _ => rfl, fun hnames => hnames⟩

theorem SameBut.trans {name : String} {before middle after : List (String × α)}
    (hfirst : SameBut name before middle) (hsecond : SameBut name middle after) :
    SameBut name before after where
  others := fun other hne => (hsecond.others other hne).trans (hfirst.others other hne)
  nodup := fun hnames => hsecond.nodup (hfirst.nodup hnames)

theorem sameBut_rewrite (name : String) (change : α → α) (missing : α)
    (values : List (String × α)) : SameBut name values (rewrite name change missing values) where
  others := fun _ hne => lookup_rewrite_of_ne hne values
  nodup := nodup_names_rewrite

end Named
end DbSteward
