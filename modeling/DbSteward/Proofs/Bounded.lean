import DbSteward.Json.Reader
import DbSteward.Proofs.Codec
import DbSteward.Proofs.Rounding

/-!
# Texts give bounded values

Whatever the reader of JSON text makes of a text, its integers fit a word and its real numbers
are finite.
-/

namespace DbSteward

namespace Binary64

/-- The numerator of a power of ten from ten on. -/
theorem ratio_powerOfTen {k : Nat} (hsome : k ≠ 0) (hmost : k ≤ 308) :
    Nat.pow 2 1077 ≤ (powerOfTen k).ratio.1 := by
  have hall : ∀ k < 309, k ≠ 0 → Nat.pow 2 1077 ≤ (powerOfTen k).ratio.1 := by decide +kernel
  exact hall k (by omega) hsome

end Binary64

namespace Json

/-! ## Number literals -/

theorem absorb_le {value : Nat} (hvalue : value ≤ wordLimit) (digits : List Nat) :
    (absorb value digits).1 ≤ wordLimit := by
  induction digits generalizing value with
  | nil => exact hvalue
  | cons digit digits ih =>
      unfold absorb
      split
      · exact hvalue
      · exact ih (by omega)

theorem isFinite_lowered {steps : Nat} {x y : Binary64} {power : Int} (hfinite : x.isFinite = true)
    (hlowered : lowered steps x power = some y) : y.isFinite = true := by
  induction steps generalizing x power with
  | zero =>
      obtain rfl := Option.some.inj hlowered
      exact hfinite
  | succ steps ih =>
      unfold lowered at hlowered
      split at hlowered
      · split at hlowered
        · obtain ⟨hproduct, hreturn⟩ := Option.ite_none_right_eq_some.1 hlowered
          exact Option.some.inj hreturn ▸ hproduct
        · obtain rfl := Option.some.inj hlowered
          exact Binary64.isFinite_div hfinite (Binary64.ratio_powerOfTen (by omega) (by assumption))
      · split at hlowered
        · obtain rfl := Option.some.inj hlowered
          exact hfinite
        · split at hlowered
          · cases hlowered
          · have hgreatest :=
              Binary64.ratio_powerOfTen (show greatestPower ≠ 0 by decide) (by decide)
            exact ih (Binary64.isFinite_div hfinite hgreatest) hlowered

theorem Bounded.signed (negative : Bool) {significand : Nat} (hfits : significand ≤ wordLimit)
    (power : Int) : (Json.signed negative (scaled significand power)).Bounded := by
  cases hscaled : scaled significand power with
  | none => exact .malformed
  | some x =>
      have hlimit : wordLimit = 2 ^ 64 - 1 := by decide
      have hfinite : x.isFinite = true :=
        isFinite_lowered (Binary64.isFinite_ofNat false (by omega)) hscaled
      refine .real ?_
      split
      · exact Binary64.isFinite_negate hfinite
      · exact hfinite

theorem Bounded.zero (negative : Bool) : (Json.real (.zero negative)).Bounded :=
  .real (Binary64.isFinite_withSign negative (by decide))

theorem Bounded.value (literal : NumberLiteral) : literal.value.Bounded := by
  have hlimit : wordLimit = 2 ^ 64 - 1 := by decide
  have hhalf : UInt64.size / 2 = 2 ^ 63 := by decide
  have hwhole := absorb_le (Nat.zero_le wordLimit) literal.whole
  unfold NumberLiteral.value
  generalize absorb 0 literal.whole = absorbed at hwhole ⊢
  obtain ⟨whole, dropped⟩ := absorbed
  have hsignificand := absorb_le hwhole literal.fraction
  dsimp only at hwhole hsignificand ⊢
  generalize absorb whole literal.fraction = absorbed at hsignificand ⊢
  obtain ⟨significand, unread⟩ := absorbed
  dsimp only at hsignificand ⊢
  split
  · split
    · exact .signed _ hsignificand _
    · split
      · exact .malformed
      · exact .zero _
  · split
    · exact .signed _ hsignificand _
    split
    · exact .integer (by omega) (by omega)
    split
    · exact .real (Binary64.isFinite_ofNat true (by omega))
    · rename_i hfits
      simp only [hhalf, Bool.or_eq_true, decide_eq_true_eq, not_or] at hfits
      exact .integer (by omega) (by omega)

theorem Bounded.of_number? {cs rest : List Char} {j : Json}
    (hread : number? cs = some (j, rest)) : j.Bounded := by
  unfold number? at hread
  split at hread
  obtain ⟨⟨whole, _⟩, -, hread⟩ := Option.bind_eq_some_iff.1 hread
  obtain ⟨⟨pointed, fraction, _⟩, -, hread⟩ := Option.bind_eq_some_iff.1 hread
  obtain ⟨⟨exponent, _⟩, -, hreturn⟩ := Option.bind_eq_some_iff.1 hread
  exact (Prod.mk.inj (Option.some.inj hreturn)).1 ▸ .value _

/-! ## Values -/

theorem Bounded.ofSpelling (spelling : Option (List Char)) :
    (Json.ofSpelling spelling).Bounded := by
  cases spelling with
  | none => exact .malformed
  | some cs => exact .text _

theorem Bounded.ofMembers {members : List (Option String × Json)}
    (hmembers : ∀ member ∈ members, member.2.Bounded) : (Json.ofMembers members).Bounded := by
  unfold Json.ofMembers
  split
  · rename_i named hnamed
    refine .object fun member hmem => ?_
    obtain ⟨source, hsource, hkey⟩ := Codec.exists_of_mapM_eq_some hnamed hmem
    obtain ⟨key, -, rfl⟩ := Option.map_eq_some_iff.1 hkey
    exact hmembers source hsource
  · exact .malformed

/-- Whatever is read with this much fuel is bounded. -/
structure GivesBounded (fuel : Nat) : Prop where
  value : ∀ {cs rest j}, value? fuel cs = some (j, rest) → j.Bounded
  items : ∀ {cs rest items}, items? fuel cs = some (items, rest) → ∀ item ∈ items, item.Bounded
  members : ∀ {cs rest members}, members? fuel cs = some (members, rest) →
    ∀ member ∈ members, member.2.Bounded

section Step

variable {fuel : Nat} {cs rest : List Char}

theorem GivesBounded.value_succ (hgives : GivesBounded fuel) {j : Json}
    (hread : value? (fuel + 1) cs = some (j, rest)) : j.Bounded := by
  unfold value? at hread
  split at hread
  · exact (Prod.mk.inj (Option.some.inj hread)).1 ▸ .null
  · exact (Prod.mk.inj (Option.some.inj hread)).1 ▸ .flag true
  · exact (Prod.mk.inj (Option.some.inj hread)).1 ▸ .flag false
  · obtain ⟨⟨pieces, _⟩, -, hreturn⟩ := Option.bind_eq_some_iff.1 hread
    exact (Prod.mk.inj (Option.some.inj hreturn)).1 ▸ .ofSpelling _
  · split at hread
    · exact (Prod.mk.inj (Option.some.inj hread)).1 ▸ .array (by simp)
    · obtain ⟨⟨items, _⟩, hitems, hreturn⟩ := Option.bind_eq_some_iff.1 hread
      exact (Prod.mk.inj (Option.some.inj hreturn)).1 ▸ .array (hgives.items hitems)
  · split at hread
    · exact (Prod.mk.inj (Option.some.inj hread)).1 ▸ .object (by simp)
    · obtain ⟨⟨members, _⟩, hmembers, hreturn⟩ := Option.bind_eq_some_iff.1 hread
      exact (Prod.mk.inj (Option.some.inj hreturn)).1 ▸ .ofMembers (hgives.members hmembers)
  · exact .of_number? hread

theorem GivesBounded.items_succ (hgives : GivesBounded fuel) {items : List Json}
    (hread : items? (fuel + 1) cs = some (items, rest)) : ∀ item ∈ items, item.Bounded := by
  obtain ⟨⟨item, _⟩, hitem, hread⟩ := Option.bind_eq_some_iff.1 hread
  dsimp only at hread
  split at hread
  · obtain ⟨⟨others, _⟩, hothers, hreturn⟩ := Option.bind_eq_some_iff.1 hread
    obtain ⟨rfl, rfl⟩ := Prod.mk.inj (Option.some.inj hreturn)
    exact List.forall_mem_cons.2 ⟨hgives.value hitem, hgives.items hothers⟩
  · obtain ⟨rfl, rfl⟩ := Prod.mk.inj (Option.some.inj hread)
    exact List.forall_mem_singleton.2 (hgives.value hitem)
  · cases hread

theorem GivesBounded.members_succ (hgives : GivesBounded fuel)
    {members : List (Option String × Json)}
    (hread : members? (fuel + 1) cs = some (members, rest)) :
    ∀ member ∈ members, member.2.Bounded := by
  unfold members? at hread
  split at hread
  · obtain ⟨⟨pieces, _⟩, -, hread⟩ := Option.bind_eq_some_iff.1 hread
    dsimp only at hread
    split at hread
    · obtain ⟨⟨value, _⟩, hvalue, hread⟩ := Option.bind_eq_some_iff.1 hread
      dsimp only at hread
      split at hread
      · obtain ⟨⟨others, _⟩, hothers, hreturn⟩ := Option.bind_eq_some_iff.1 hread
        obtain ⟨rfl, rfl⟩ := Prod.mk.inj (Option.some.inj hreturn)
        exact List.forall_mem_cons.2 ⟨hgives.value hvalue, hgives.members hothers⟩
      · obtain ⟨rfl, rfl⟩ := Prod.mk.inj (Option.some.inj hread)
        exact List.forall_mem_singleton.2 (hgives.value hvalue)
      · cases hread
    · cases hread
  · cases hread

end Step

theorem givesBounded (fuel : Nat) : GivesBounded fuel := by
  induction fuel with
  | zero =>
      refine ⟨?_, ?_, ?_⟩
      all_goals
        intro _ _ _ hread
        cases hread
  | succ fuel ih => exact ⟨ih.value_succ, ih.items_succ, ih.members_succ⟩

theorem Bounded.of_ofText? {text : String} {j : Json} (hread : ofText? text = some j) :
    j.Bounded := by
  obtain ⟨⟨value, rest⟩, hvalue, hread⟩ := Option.bind_eq_some_iff.1 hread
  obtain ⟨-, hreturn⟩ := Option.ite_none_right_eq_some.1 hread
  exact Option.some.inj hreturn ▸ (givesBounded _).value hvalue

end Json
end DbSteward
