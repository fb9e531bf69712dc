import DbSteward.Change.Overrides
import Mathlib.Algebra.Order.Floor.Div

/-!
# Batches

A list goes out in batches that put together are the list.  All of them are full but the last one,
which holds what is left, and there is only one way to take a list apart like this.
-/

namespace DbSteward

variable {α β : Type}

theorem batchesWithin_nil (limit fuel : Nat) : batchesWithin limit fuel ([] : List α) = [] := by
  cases fuel <;> rfl

theorem batchesWithin_cons (limit fuel : Nat) (item : α) (rest : List α) :
    batchesWithin limit (fuel + 1) (item :: rest) =
      (item :: rest).take (max limit 1) ::
        batchesWithin limit fuel ((item :: rest).drop (max limit 1)) :=
  rfl

theorem flatten_batchesWithin {limit fuel : Nat} {items : List α}
    (hfuel : items.length ≤ fuel) : (batchesWithin limit fuel items).flatten = items := by
  induction fuel generalizing items with
  | zero =>
      have hnone : items = [] := List.length_eq_zero_iff.1 (Nat.le_zero.1 hfuel)
      rw [hnone]
      rfl
  | succ fuel ih =>
      cases items with
      | nil => rfl
      | cons item rest =>
          have hshorter : ((item :: rest).drop (max limit 1)).length ≤ fuel := by
            rw [List.length_drop]
            omega
          rw [batchesWithin_cons, List.flatten_cons, ih hshorter, List.take_append_drop]

theorem flatten_batches (limit : Nat) (items : List α) :
    (batches limit items).flatten = items :=
  flatten_batchesWithin (Nat.le_refl _)

/-! ## Full parts -/

/-- Parts of at most `limit` items, a limit of zero counting as one.  None is empty, and all but
the last are full. -/
structure Filled {α : Type} (limit : Nat) (parts : List (List α)) : Prop where
  length_pos : ∀ part ∈ parts, 1 ≤ part.length
  length_le : ∀ part ∈ parts, part.length ≤ max limit 1
  full : ∀ part ∈ parts.dropLast, part.length = max limit 1

theorem Filled.nil {α : Type} (limit : Nat) : Filled limit ([] : List (List α)) :=
  ⟨by simp, by simp, by simp⟩

theorem Filled.last {α : Type} {limit : Nat} {part : List α} (hpos : 1 ≤ part.length)
    (hle : part.length ≤ max limit 1) : Filled limit [part] :=
  ⟨fun _ hmem => List.mem_singleton.1 hmem ▸ hpos, fun _ hmem => List.mem_singleton.1 hmem ▸ hle,
    by simp⟩

theorem Filled.cons {α : Type} {limit : Nat} {part : List α} {parts : List (List α)}
    (hpart : part.length = max limit 1) (hparts : Filled limit parts) :
    Filled limit (part :: parts) where
  length_pos := by
    simp only [List.mem_cons, forall_eq_or_imp]
    exact ⟨by omega, hparts.length_pos⟩
  length_le := by
    simp only [List.mem_cons, forall_eq_or_imp]
    exact ⟨by omega, hparts.length_le⟩
  full := by
    intro other hmem
    cases parts with
    | nil => simp at hmem
    | cons next rest =>
        rw [List.dropLast_cons_cons, List.mem_cons] at hmem
        rcases hmem with rfl | hlater
        · exact hpart
        · exact hparts.full other hlater

theorem filled_batchesWithin {α : Type} (limit fuel : Nat) (items : List α) :
    Filled limit (batchesWithin limit fuel items) := by
  induction fuel generalizing items with
  | zero => exact .nil limit
  | succ fuel ih =>
      cases items with
      | nil => exact .nil limit
      | cons item rest =>
          rw [batchesWithin_cons]
          by_cases hmore : max limit 1 ≤ (item :: rest).length
          · exact .cons (List.length_take_of_le hmore) (ih _)
          · -- The part that is not full takes all that is left.
            have hnone : (item :: rest).drop (max limit 1) = [] :=
              List.drop_eq_nil_of_le (by omega)
            rw [hnone, batchesWithin_nil, List.take_of_length_le (by omega)]
            exact .last (by simp) (by omega)

theorem filled_batches (limit : Nat) (items : List α) : Filled limit (batches limit items) :=
  filled_batchesWithin ..

/-! ## Rounded-up quotients -/

theorem ceilDiv_eq_one {n size : Nat} (hpos : 1 ≤ n) (hle : n ≤ size) : n ⌈/⌉ size = 1 := by
  rw [Nat.ceilDiv_eq_add_pred_div]
  exact Nat.div_eq_of_lt_le (by omega) (by omega)

theorem add_ceilDiv {size : Nat} (hsize : 0 < size) (n : Nat) :
    (size + n) ⌈/⌉ size = n ⌈/⌉ size + 1 := by
  rw [Nat.ceilDiv_eq_add_pred_div, Nat.ceilDiv_eq_add_pred_div, ← Nat.add_div_right _ hsize]
  congr 1
  omega

/-! ## One way to fill parts -/

namespace Filled

variable {limit : Nat} {part : List α} {rest parts others : List (List α)}

/-- The first part is full, or there is no other one. -/
theorem uncons (hfilled : Filled limit (part :: rest)) :
    Filled limit rest ∧ (rest = [] ∨ part.length = max limit 1) := by
  cases rest with
  | nil => exact ⟨.nil limit, .inl rfl⟩
  | cons next later =>
      have hfull := hfilled.full
      rw [List.dropLast_cons_cons] at hfull
      refine ⟨⟨fun other hmem => ?_, fun other hmem => ?_, fun other hmem => ?_⟩,
        .inr (hfull part (List.mem_cons_self ..))⟩
      · exact hfilled.length_pos other (List.mem_cons_of_mem _ hmem)
      · exact hfilled.length_le other (List.mem_cons_of_mem _ hmem)
      · exact hfull other (List.mem_cons_of_mem _ hmem)

theorem head_bounds (hfilled : Filled limit (part :: rest)) :
    1 ≤ part.length ∧ part.length ≤ max limit 1 :=
  ⟨hfilled.length_pos part (List.mem_cons_self ..), hfilled.length_le part (List.mem_cons_self ..)⟩

theorem length_eq (hfilled : Filled limit parts) :
    parts.length = parts.flatten.length ⌈/⌉ max limit 1 := by
  induction parts with
  | nil => simp
  | cons part rest ih =>
      obtain ⟨hrest, hlast | hfull⟩ := hfilled.uncons
      · subst hlast
        have hone := ceilDiv_eq_one hfilled.head_bounds.1 hfilled.head_bounds.2
        simp [hone]
      · have hsize : 0 < max limit 1 := by omega
        rw [List.length_cons, ih hrest, List.flatten_cons, List.length_append, hfull,
          add_ceilDiv hsize]

theorem take_flatten (hfilled : Filled limit (part :: rest)) :
    (part :: rest).flatten.take (max limit 1) = part := by
  obtain ⟨-, hlast | hfull⟩ := hfilled.uncons
  · rw [hlast, List.flatten_singleton, List.take_of_length_le hfilled.head_bounds.2]
  · rw [List.flatten_cons, List.take_left' hfull]

theorem drop_flatten (hfilled : Filled limit (part :: rest)) :
    (part :: rest).flatten.drop (max limit 1) = rest.flatten := by
  obtain ⟨-, hlast | hfull⟩ := hfilled.uncons
  · rw [hlast, List.flatten_singleton, List.drop_eq_nil_of_le hfilled.head_bounds.2]
    rfl
  · rw [List.flatten_cons, List.drop_left' hfull]

theorem flatten_ne_nil (hfilled : Filled limit (part :: rest)) : (part :: rest).flatten ≠ [] := by
  intro hnone
  have hpart : part = [] := (List.append_eq_nil_iff.1 hnone).1
  have hpos := hfilled.head_bounds.1
  rw [hpart] at hpos
  exact Nat.not_succ_le_zero 0 hpos

theorem eq_of_flatten_eq (hparts : Filled limit parts) (hothers : Filled limit others)
    (hsame : parts.flatten = others.flatten) : parts = others := by
  induction parts generalizing others with
  | nil =>
      cases others with
      | nil => rfl
      | cons other later => exact absurd hsame.symm hothers.flatten_ne_nil
  | cons part rest ih =>
      cases others with
      | nil => exact absurd hsame hparts.flatten_ne_nil
      | cons other later =>
          have hhead : part = other := by
            rw [← hparts.take_flatten, hsame, hothers.take_flatten]
          have hrest : rest.flatten = later.flatten := by
            rw [← hparts.drop_flatten, hsame, hothers.drop_flatten]
          rw [hhead, ih hparts.uncons.1 hothers.uncons.1 hrest]

theorem map (hfilled : Filled limit parts) (f : α → β) :
    Filled limit (parts.map (List.map f)) where
  length_pos := by simpa using hfilled.length_pos
  length_le := by simpa using hfilled.length_le
  full := by simpa [← List.map_dropLast] using hfilled.full

end Filled

theorem batches_map (f : α → β) (limit : Nat) (items : List α) :
    batches limit (items.map f) = (batches limit items).map (List.map f) := by
  refine (filled_batches ..).eq_of_flatten_eq ((filled_batches ..).map f) ?_
  rw [flatten_batches, ← List.map_flatten, flatten_batches]

/-- A list has as many batches as its length divided by their size, rounded up, and put together
they are the list.  All but the last are full, and the last one is neither empty nor more than full.
There is no other way to take the list apart like this.  An empty list has no batch. -/
theorem batches_full_but_last (limit : Nat) (items : List α) :
    (batches limit items).length = items.length ⌈/⌉ max limit 1 ∧
      (batches limit items).flatten = items ∧
      (∀ part ∈ (batches limit items).dropLast, part.length = max limit 1) ∧
      (∀ part ∈ (batches limit items).getLast?, 1 ≤ part.length ∧ part.length ≤ max limit 1) ∧
      (∀ parts : List (List α), parts.flatten = items → Filled limit parts →
        parts = batches limit items) ∧
      batches limit ([] : List α) = [] := by
  have hfilled := filled_batches limit items
  have hwhole := flatten_batches limit items
  refine ⟨?_, hwhole, hfilled.full, fun part hlast => ?_, fun parts hparts hother => ?_, rfl⟩
  · rw [hfilled.length_eq, hwhole]
  · have hmem := List.mem_of_getLast? hlast
    exact ⟨hfilled.length_pos part hmem, hfilled.length_le part hmem⟩
  · exact hother.eq_of_flatten_eq hfilled (hparts.trans hwhole.symm)

/-- Five items in pairs leave one item for the last batch. -/
theorem five_items_in_pairs :
    (batches 2 [1, 2, 3, 4, 5]).length = 3 ∧
      [3, 4] ∈ (batches 2 [1, 2, 3, 4, 5]).dropLast ∧ [3, 4].length = max 2 1 ∧
      [5] ∈ (batches 2 [1, 2, 3, 4, 5]).getLast? ∧ 1 ≤ [5].length ∧ [5].length ≤ max 2 1 ∧
      [[1, 2], [3, 4], [5]].flatten = [1, 2, 3, 4, 5] ∧ Filled 2 [[1, 2], [3, 4], [5]] ∧
      [[1, 2], [3, 4], [5]] = batches 2 [1, 2, 3, 4, 5] := by
  have hfilled : Filled 2 [[1, 2], [3, 4], [5]] := ⟨by decide, by decide, by decide⟩
  obtain ⟨hlength, -, hfull, hlast, hunique, -⟩ := batches_full_but_last 2 [1, 2, 3, 4, 5]
  have hpair : [3, 4] ∈ (batches 2 [1, 2, 3, 4, 5]).dropLast := by decide
  have hsingle : [5] ∈ (batches 2 [1, 2, 3, 4, 5]).getLast? := by decide
  exact ⟨hlength, hpair, hfull _ hpair, hsingle, (hlast _ hsingle).1, (hlast _ hsingle).2, rfl,
    hfilled, hunique _ rfl hfilled⟩

-- A limit of zero counts as one.
example : batches 0 ["a", "b"] = [["a"], ["b"]] := by
  decide

end DbSteward
