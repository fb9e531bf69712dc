import DbSteward.Json.Printer
import DbSteward.Json.Reader
import DbSteward.Proofs.Numeral
import Mathlib.Algebra.Group.Int.Defs

/-!
# Number literals at the head of a text

The literal of an integer that fits a word reads back as that integer.  A literal is read alike
whatever follows it, as long as what follows does not go on with the literal.
-/

namespace DbSteward
namespace Json

open Text (EndsDigits)

/-! ## What follows a literal -/

/-- The text does not go on with a digit, a point or an exponent. -/
def EndsNumber (rest : List Char) : Prop :=
  ∀ c cs, rest = c :: cs → c.isDigit = false ∧ c ≠ '.' ∧ c ≠ 'e' ∧ c ≠ 'E'

theorem endsNumber_nil : EndsNumber [] :=
  fun _ _ hcons => absurd hcons (by simp)

theorem endsNumber_cons {c : Char}
    (hother : c.isDigit = false ∧ c ≠ '.' ∧ c ≠ 'e' ∧ c ≠ 'E') (cs : List Char) :
    EndsNumber (c :: cs) :=
  fun _ _ hcons => (List.cons.inj hcons).1 ▸ hother

theorem EndsNumber.endsDigits {rest : List Char} (hend : EndsNumber rest) : EndsDigits rest :=
  fun c cs hcons => (hend c cs hcons).1

section Append

variable {cs rest left : List Char}

theorem digits_append (hend : EndsDigits rest) (cs : List Char) :
    digits (cs ++ rest) = ((digits cs).1, (digits cs).2 ++ rest) := by
  induction cs with
  | nil => simp [digits, hend.takeWhile_eq, hend.dropWhile_eq]
  | cons c cs ih =>
      by_cases hdigit : c.isDigit = true
      · simp only [digits, List.cons_append, List.takeWhile_cons_of_pos hdigit,
          List.dropWhile_cons_of_pos hdigit, List.map_cons, Prod.mk.injEq] at ih ⊢
        exact ⟨by rw [ih.1], ih.2⟩
      · simp [digits, hdigit]

theorem someDigits?_append (hend : EndsDigits rest) (cs : List Char) :
    someDigits? (cs ++ rest) = (someDigits? cs).map fun (found, left) => (found, left ++ rest) := by
  rw [someDigits?, someDigits?, digits_append hend]
  generalize digits cs = split
  obtain ⟨_ | ⟨digit, others⟩, left⟩ := split <;> rfl

theorem wholeDigits?_append (hend : EndsDigits rest) (cs : List Char) :
    wholeDigits? (cs ++ rest) =
      (wholeDigits? cs).map fun (found, left) => (found, left ++ rest) := by
  rw [wholeDigits?, wholeDigits?, digits_append hend]
  generalize digits cs = split
  obtain ⟨_ | ⟨_ | digit, _ | ⟨next, others⟩⟩, left⟩ := split <;> rfl

theorem fraction?_of_ne {c : Char} (hne : c ≠ '.') (cs : List Char) :
    fraction? (c :: cs) = some (false, [], c :: cs) := by
  unfold fraction?
  split
  · rename_i heq
    exact absurd (List.cons.inj heq).1 hne
  · rfl

theorem fraction?_append (hend : EndsNumber rest) (cs : List Char) :
    fraction? (cs ++ rest) =
      (fraction? cs).map fun (pointed, found, left) => (pointed, found, left ++ rest) := by
  cases cs with
  | nil =>
      cases rest with
      | nil => rfl
      | cons c cs => exact fraction?_of_ne (hend c cs rfl).2.1 cs
  | cons c cs =>
      by_cases hpoint : c = '.'
      · subst hpoint
        simp only [List.cons_append, fraction?, someDigits?_append hend.endsDigits,
          Option.map_map]
        rfl
      · rw [List.cons_append, fraction?_of_ne hpoint, fraction?_of_ne hpoint]
        rfl

theorem exponent?_of_ne {c : Char} (hlower : c ≠ 'e') (hupper : c ≠ 'E') (cs : List Char) :
    exponent? (c :: cs) = some (none, c :: cs) := by
  simp [exponent?, hlower, hupper]

/-- The digits of an exponent, after its sign if there is one. -/
theorem exponent?_of_mark {c d : Char} (hmark : (c == 'e' || c == 'E') = true) (cs : List Char) :
    exponent? (c :: d :: cs) =
      (someDigits? (if d = '-' ∨ d = '+' then cs else d :: cs)).map
        fun (found, rest) => (some (decide (d = '-'), found), rest) := by
  simp only [exponent?, hmark, if_true]
  by_cases hminus : d = '-'
  · subst hminus
    rfl
  by_cases hplus : d = '+'
  · subst hplus
    rfl
  simp only [hminus, hplus, or_self, if_false, decide_false]
  split
  · exact absurd (List.cons.inj ‹_›).1 hminus
  · exact absurd (List.cons.inj ‹_›).1 hplus
  · rfl

theorem exponent?_append (hend : EndsNumber rest) {found : Option (Bool × List Nat)}
    (hread : exponent? cs = some (found, left)) :
    exponent? (cs ++ rest) = some (found, left ++ rest) := by
  cases cs with
  | nil =>
      obtain ⟨rfl, rfl⟩ := Prod.mk.inj (Option.some.inj hread)
      cases rest with
      | nil => rfl
      | cons c cs => exact exponent?_of_ne (hend c cs rfl).2.2.1 (hend c cs rfl).2.2.2 cs
  | cons c cs =>
      by_cases hmark : (c == 'e' || c == 'E') = true
      · cases cs with
        | nil => simp [exponent?, hmark, someDigits?, digits] at hread
        | cons d cs =>
            rw [exponent?_of_mark hmark] at hread
            obtain ⟨⟨digits, left'⟩, hdigits, hreturn⟩ := Option.map_eq_some_iff.1 hread
            obtain ⟨rfl, rfl⟩ := Prod.mk.inj hreturn
            have happend : (if d = '-' ∨ d = '+' then cs ++ rest else d :: (cs ++ rest)) =
                (if d = '-' ∨ d = '+' then cs else d :: cs) ++ rest := by
              split <;> rfl
            rw [List.cons_append, List.cons_append, exponent?_of_mark hmark, happend,
              someDigits?_append hend.endsDigits, hdigits]
            rfl
      · simp only [Bool.or_eq_true, beq_iff_eq, not_or] at hmark
        rw [exponent?_of_ne hmark.1 hmark.2] at hread
        obtain ⟨rfl, rfl⟩ := Prod.mk.inj (Option.some.inj hread)
        exact exponent?_of_ne hmark.1 hmark.2 (cs ++ rest)

/-- The literal after its sign. -/
def unsignedNumber? (negative : Bool) (cs : List Char) : Option (Json × List Char) := do
  let (whole, cs) ← wholeDigits? cs
  let (pointed, fraction, cs) ← fraction? cs
  let (exponent, cs) ← exponent? cs
  return (NumberLiteral.value ⟨negative, whole, fraction, exponent, pointed⟩, cs)

theorem number?_minus (cs : List Char) : number? ('-' :: cs) = unsignedNumber? true cs :=
  rfl

theorem number?_of_ne {c : Char} (hne : c ≠ '-') (cs : List Char) :
    number? (c :: cs) = unsignedNumber? false (c :: cs) := by
  unfold number?
  split
  rename_i negative cs' hsign
  split at hsign
  · exact absurd (List.cons.inj ‹_›).1 hne
  · obtain ⟨rfl, rfl⟩ := Prod.mk.inj hsign
    rfl

theorem unsignedNumber?_append (hend : EndsNumber rest) {negative : Bool} {j : Json}
    (hread : unsignedNumber? negative cs = some (j, left)) :
    unsignedNumber? negative (cs ++ rest) = some (j, left ++ rest) := by
  obtain ⟨⟨whole, afterWhole⟩, hwhole, hread⟩ := Option.bind_eq_some_iff.1 hread
  obtain ⟨⟨pointed, fraction, afterFraction⟩, hfraction, hread⟩ := Option.bind_eq_some_iff.1 hread
  obtain ⟨⟨exponent, left'⟩, hexponent, hreturn⟩ := Option.bind_eq_some_iff.1 hread
  obtain ⟨rfl, rfl⟩ := Prod.mk.inj (Option.some.inj hreturn)
  have hwhole' := wholeDigits?_append hend.endsDigits cs
  have hfraction' := fraction?_append hend afterWhole
  rw [hwhole, Option.map_some] at hwhole'
  rw [hfraction, Option.map_some] at hfraction'
  simp only [unsignedNumber?, Option.bind_eq_bind, Option.bind_some, hwhole', hfraction',
    exponent?_append hend hexponent]
  rfl

theorem number?_append (hend : EndsNumber rest) {j : Json} (hread : number? cs = some (j, left)) :
    number? (cs ++ rest) = some (j, left ++ rest) := by
  cases cs with
  | nil => cases hread
  | cons c cs =>
      by_cases hminus : c = '-'
      · subst hminus
        rw [number?_minus] at hread
        exact unsignedNumber?_append hend hread
      · rw [number?_of_ne hminus] at hread
        rw [List.cons_append, number?_of_ne hminus]
        exact unsignedNumber?_append hend hread

end Append
/-! ## Integers -/

theorem absorb_of_le {digits : List Char} {value : Nat}
    (hfits : Nat.ofDigitChars 10 digits value ≤ wordLimit) :
    absorb value (digits.map fun c => c.toNat - '0'.toNat) =
      (Nat.ofDigitChars 10 digits value, []) := by
  induction digits generalizing value with
  | nil => rfl
  | cons c cs ih =>
      rw [Nat.ofDigitChars_cons] at hfits ⊢
      have hvalue := Nat.le_trans (Text.le_ofDigitChars cs _) hfits
      rw [List.map_cons, absorb, if_neg (by omega), Nat.mul_comm value 10]
      exact ih hfits

/-- A numeral of more than one digit does not begin with zero. -/
theorem decimal_ne_zero_cons {n : Nat} {c d : Char} {cs : List Char}
    (hdecimal : Text.decimal n = c :: d :: cs) : c.toNat - '0'.toNat ≠ 0 := by
  intro hzero
  have hdigits : ∀ e ∈ d :: cs, e.isDigit = true := fun e hmem =>
    Text.isDigit_of_mem_decimal (hdecimal ▸ List.mem_cons_of_mem c hmem)
  have hvalue : Nat.ofDigitChars 10 (d :: cs) 0 = n := by
    have hn := Text.ofDigitChars_decimal n
    rwa [hdecimal, Nat.ofDigitChars_cons, hzero] at hn
  have hless : n < 10 ^ (d :: cs).length := hvalue ▸ Text.ofDigitChars_lt hdigits
  have hshort := (Text.length_decimal_le_iff (Nat.succ_pos cs.length)).2 hless
  rw [hdecimal, List.length_cons, List.length_cons] at hshort
  omega

theorem wholeDigits?_decimal (n : Nat) :
    wholeDigits? (Text.decimal n) =
      some ((Text.decimal n).map fun c => c.toNat - '0'.toNat, []) := by
  have hdigits : ∀ c ∈ Text.decimal n, c.isDigit = true := fun _ =>
    Text.isDigit_of_mem_decimal
  have hsplit : digits (Text.decimal n) =
      ((Text.decimal n).map fun c => c.toNat - '0'.toNat, []) := by
    have htake := Text.takeWhile_digits hdigits Text.endsDigits_nil
    have hdrop := Text.dropWhile_digits hdigits Text.endsDigits_nil
    rw [List.append_nil] at htake hdrop
    rw [digits, htake, hdrop]
  rw [wholeDigits?, hsplit]
  match hdecimal : Text.decimal n with
  | [] => exact absurd hdecimal (Text.decimal_ne_nil n)
  | [c] =>
      simp only [List.map_cons, List.map_nil]
      generalize c.toNat - '0'.toNat = digit
      cases digit <;> rfl
  | c :: d :: cs =>
      have hhead := decimal_ne_zero_cons hdecimal
      simp only [List.map_cons]
      split
      · exact absurd ‹_› (by simp)
      · rename_i heq
        exact absurd (List.cons.inj (Prod.mk.inj heq).1).1 hhead
      · rename_i heq
        rw [(Prod.mk.inj heq).1, (Prod.mk.inj heq).2]

theorem unsignedNumber?_decimal (negative : Bool) (n : Nat) :
    unsignedNumber? negative (Text.decimal n) =
      some (NumberLiteral.value ⟨negative, (Text.decimal n).map fun c => c.toNat - '0'.toNat,
        [], none, false⟩, []) := by
  rw [unsignedNumber?, wholeDigits?_decimal]
  rfl

theorem number?_decimal (n : Nat) :
    number? (Text.decimal n) = unsignedNumber? false (Text.decimal n) := by
  obtain ⟨c, cs, hcons⟩ := List.exists_cons_of_ne_nil (Text.decimal_ne_nil n)
  have hdigit : c.isDigit = true := Text.isDigit_of_mem_decimal (hcons ▸ List.mem_cons_self ..)
  have hminus : c ≠ '-' := by
    rintro rfl
    exact absurd hdigit (by decide)
  rw [hcons, number?_of_ne hminus]

theorem value_decimal {negative : Bool} {n : Nat} (hfits : n ≤ wordLimit)
    (hnegative : negative = true → n ≠ 0 ∧ n ≤ 2 ^ 63) :
    NumberLiteral.value ⟨negative, (Text.decimal n).map fun c => c.toNat - '0'.toNat, [], none,
      false⟩ = .integer (if negative then -n else n) := by
  have habsorb : absorb 0 ((Text.decimal n).map fun c => c.toNat - '0'.toNat) = (n, []) := by
    have hvalue := Text.ofDigitChars_decimal n
    rw [absorb_of_le (by rwa [hvalue]), hvalue]
  have hsize : UInt64.size / 2 = 2 ^ 63 := by decide
  simp only [NumberLiteral.value, habsorb, absorb, hsize]
  cases negative with
  | false => rfl
  | true =>
      obtain ⟨hnonzero, hbound⟩ := hnegative rfl
      have hfits : (decide (n = 0) || decide (2 ^ 63 < n)) = false := by
        rw [decide_eq_false hnonzero, decide_eq_false (Nat.not_lt.2 hbound)]
        rfl
      simp only [hfits, List.isEmpty_nil, Bool.not_true, Bool.or_self, Bool.false_eq_true, if_false,
        if_true]

/-- An integer that fits a word, with a sign or without, is read as it is written. -/
theorem number?_decimalInt {i : Int} (hlower : -2 ^ 63 ≤ i) (hupper : i < 2 ^ 64) :
    number? (Text.decimalInt i) = some (.integer i, []) := by
  have hlimit : wordLimit = 2 ^ 64 - 1 := by decide
  unfold Text.decimalInt
  split
  · rename_i hnegative
    rw [number?_minus, unsignedNumber?_decimal,
      value_decimal (by omega) fun _ => ⟨by omega, by omega⟩, if_pos rfl]
    simp only [Option.some.injEq, Prod.mk.injEq, Json.integer.injEq, and_true]
    omega
  · rw [number?_decimal, unsignedNumber?_decimal,
      value_decimal (by omega) fun hfalse => absurd hfalse (by decide)]
    simp only [Bool.false_eq_true, if_false, Option.some.injEq, Prod.mk.injEq, Json.integer.injEq,
      and_true]
    omega

end Json
end DbSteward
