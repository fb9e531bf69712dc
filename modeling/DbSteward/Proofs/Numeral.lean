import DbSteward.Text.Blank
import DbSteward.Text.Numeral
import Mathlib.Algebra.Group.Nat.Defs
import Mathlib.Data.List.TakeWhile

/-!
# Decimal digits

What a number is written with: digits only, at least one, that give the number back.  A run of
digits ends where something else follows.  Conversely a numeral is read exactly if it consists of
digits, after a sign that its range has room for, and its number lies in the range.
-/

namespace DbSteward
namespace Text

theorem isDigit_of_mem_decimal {n : Nat} {c : Char} (hmem : c ∈ decimal n) : c.isDigit = true :=
  Nat.isDigit_of_mem_toDigits (by decide) (by decide) hmem

theorem decimal_ne_nil (n : Nat) : decimal n ≠ [] :=
  Nat.toDigits_ne_nil

theorem ofDigitChars_decimal (n : Nat) : Nat.ofDigitChars 10 (decimal n) 0 = n :=
  Nat.ofDigitChars_toDigits (by decide) (by decide)

theorem le_ofDigitChars (digits : List Char) (value : Nat) :
    value ≤ Nat.ofDigitChars 10 digits value := by
  induction digits generalizing value with
  | nil => exact Nat.le_refl _
  | cons c cs ih =>
      rw [Nat.ofDigitChars_cons]
      exact Nat.le_trans (by omega) (ih _)

theorem length_decimal_le_iff {n width : Nat} (hwidth : 0 < width) :
    (decimal n).length ≤ width ↔ n < 10 ^ width :=
  Nat.length_toDigits_le_iff (by decide) hwidth

theorem isDigit_of_mem_decimalPadded {width n : Nat} {c : Char}
    (hmem : c ∈ decimalPadded width n) : c.isDigit = true := by
  rcases List.mem_append.1 hmem with hzero | hdigit
  · rw [List.eq_of_mem_replicate hzero]
    decide
  · exact isDigit_of_mem_decimal hdigit

theorem ofDigitChars_decimalPadded (width n : Nat) :
    Nat.ofDigitChars 10 (decimalPadded width n) 0 = n := by
  have hzeros : ∀ count, Nat.ofDigitChars 10 (List.replicate count '0') 0 = 0 := by
    intro count
    induction count with
    | zero => rfl
    | succ count ih => rw [List.replicate_succ, Nat.ofDigitChars_cons]; exact ih
  rw [decimalPadded, Nat.ofDigitChars_append, hzeros]
  exact ofDigitChars_decimal n

theorem ofDigitChars_lt {digits : List Char} (hdigits : ∀ c ∈ digits, c.isDigit = true) :
    Nat.ofDigitChars 10 digits 0 < 10 ^ digits.length := by
  have hfrom : ∀ value, Nat.ofDigitChars 10 digits value < (value + 1) * 10 ^ digits.length := by
    induction digits with
    | nil => intro value; simp
    | cons c cs ih =>
        intro value
        have hdigit : c.toNat - '0'.toNat ≤ 9 := by
          have := hdigits c (List.mem_cons_self ..)
          simp only [Char.isDigit, ge_iff_le, Bool.and_eq_true, decide_eq_true_eq] at this
          have hupper : c.toNat ≤ 57 := this.2
          have : '0'.toNat = 48 := rfl
          omega
        rw [Nat.ofDigitChars_cons, List.length_cons, Nat.pow_succ, Nat.mul_comm _ 10,
          ← Nat.mul_assoc]
        exact (ih (fun d hmem => hdigits d (List.mem_cons_of_mem _ hmem)) _).trans_le
          (Nat.mul_le_mul_right _ (by omega))
  simpa using hfrom 0

theorem decimalPadded_ne_nil (width n : Nat) : decimalPadded width n ≠ [] :=
  List.append_ne_nil_of_right_ne_nil _ (decimal_ne_nil n)

theorem length_decimalPadded {width n : Nat} (hwidth : 0 < width) (hfits : n < 10 ^ width) :
    (decimalPadded width n).length = width := by
  have hlength := (length_decimal_le_iff hwidth).2 hfits
  rw [decimalPadded, List.length_append, List.length_replicate]
  omega

theorem isBlank_eq_false_of_isDigit {c : Char} (hdigit : c.isDigit = true) :
    isBlank c = false := by
  have hrange : 48 ≤ c.toNat ∧ c.toNat ≤ 57 := by
    simp only [Char.isDigit, ge_iff_le, Bool.and_eq_true, decide_eq_true_eq] at hdigit
    exact hdigit
  simp only [isBlank, blankRanges, List.any_cons, List.any_nil, Bool.or_eq_false_iff,
    Bool.and_eq_false_iff, decide_eq_false_iff_not, and_true]
  omega

theorem dropBlanks_cons {c : Char} (hblank : isBlank c = false) (cs : List Char) :
    dropBlanks (c :: cs) = c :: cs := by
  simp [dropBlanks, hblank]

/-- No digit comes next. -/
def EndsDigits (rest : List Char) : Prop :=
  ∀ c cs, rest = c :: cs → c.isDigit = false

theorem endsDigits_nil : EndsDigits [] :=
  fun _ _ hcons => absurd hcons (by simp)

theorem endsDigits_cons {c : Char} (hother : c.isDigit = false) (cs : List Char) :
    EndsDigits (c :: cs) :=
  fun _ _ hcons => (List.cons.inj hcons).1 ▸ hother

theorem EndsDigits.takeWhile_eq {rest : List Char} (hend : EndsDigits rest) :
    rest.takeWhile Char.isDigit = [] := by
  cases rest with
  | nil => rfl
  | cons c cs => simp [hend c cs rfl]

theorem EndsDigits.dropWhile_eq {rest : List Char} (hend : EndsDigits rest) :
    rest.dropWhile Char.isDigit = rest := by
  cases rest with
  | nil => rfl
  | cons c cs => simp [hend c cs rfl]

section Runs

variable {digits rest : List Char}

theorem takeWhile_digits (hdigits : ∀ c ∈ digits, c.isDigit = true) (hend : EndsDigits rest) :
    (digits ++ rest).takeWhile Char.isDigit = digits := by
  rw [List.takeWhile_append_of_pos hdigits, hend.takeWhile_eq, List.append_nil]

theorem dropWhile_digits (hdigits : ∀ c ∈ digits, c.isDigit = true) (hend : EndsDigits rest) :
    (digits ++ rest).dropWhile Char.isDigit = rest := by
  rw [List.dropWhile_append_of_pos hdigits, hend.dropWhile_eq]

end Runs

/-! ## Numerals in a machine range -/

theorem eq_ofDigitChars_of_magnitude {limit value n : Nat} {excess : NumeralError}
    {digits : List Char} (hread : magnitude limit excess value digits = .ok n) :
    n = Nat.ofDigitChars 10 digits value := by
  induction digits generalizing value with
  | nil => exact (Except.ok.inj hread).symm
  | cons c rest ih =>
      rw [magnitude] at hread
      cases hdigit : digitValue? c with
      | none => simp [hdigit] at hread
      | some digit =>
          have hvalue : digit = c.toNat - '0'.toNat := by
            unfold digitValue? at hdigit
            split at hdigit
            · exact (Option.some.inj hdigit).symm
            · simp at hdigit
          simp only [hdigit] at hread
          split at hread
          · simp at hread
          · rw [ih hread, Nat.ofDigitChars_cons, hvalue, Nat.mul_comm value 10]

theorem magnitude_eq_ok {limit value : Nat} {excess : NumeralError} {digits : List Char}
    (hdigits : ∀ c ∈ digits, c.isDigit = true)
    (hlimit : Nat.ofDigitChars 10 digits value ≤ limit) :
    magnitude limit excess value digits = .ok (Nat.ofDigitChars 10 digits value) := by
  induction digits generalizing value with
  | nil => rfl
  | cons c rest ih =>
      have hdigit : digitValue? c = some (c.toNat - '0'.toNat) :=
        if_pos (hdigits c (List.mem_cons_self ..))
      rw [Nat.ofDigitChars_cons, Nat.mul_comm 10 value] at hlimit
      have hsofar : ¬ limit < value * 10 + (c.toNat - '0'.toNat) :=
        Nat.not_lt.2 (Nat.le_trans (le_ofDigitChars rest _) hlimit)
      rw [magnitude, hdigit, Nat.ofDigitChars_cons, Nat.mul_comm 10 value]
      simp only [if_neg hsofar]
      exact ih (fun d hmem => hdigits d (List.mem_cons_of_mem c hmem)) hlimit

/-- Digits are read as digits, for there is no sign before them. -/
theorem unsigned_decimal_eq (n : Nat) :
    unsigned (decimal n) = magnitude unsignedLimit .tooLarge 0 (decimal n) := by
  have hsome : (decimal n).isEmpty = false := List.isEmpty_eq_false_iff.2 (decimal_ne_nil n)
  have hdigits : digitsOnly unsignedLimit .tooLarge (decimal n) =
      magnitude unsignedLimit .tooLarge 0 (decimal n) := by
    rw [digitsOnly, hsome]
    rfl
  unfold unsigned
  split
  · rename_i hempty
    exact absurd hempty (decimal_ne_nil n)
  · rename_i cs hplus
    have hmem : '+' ∈ decimal n := by
      rw [hplus]
      exact List.mem_cons_self ..
    exact absurd (isDigit_of_mem_decimal hmem) (by decide)
  · exact hdigits

/-- A number written in digits is read back, unless it does not fit. -/
theorem eq_of_unsigned_decimal {n value : Nat} (hread : unsigned (decimal n) = .ok value) :
    value = n := by
  rw [unsigned_decimal_eq] at hread
  rw [eq_ofDigitChars_of_magnitude hread]
  exact ofDigitChars_decimal n

theorem unsigned_decimal {n : Nat} (hlimit : n ≤ unsignedLimit) :
    unsigned (decimal n) = .ok n := by
  have hwhole := ofDigitChars_decimal n
  have hfits : Nat.ofDigitChars 10 (decimal n) 0 ≤ unsignedLimit := by
    rw [hwhole]
    exact hlimit
  rw [unsigned_decimal_eq, magnitude_eq_ok (fun c hmem => isDigit_of_mem_decimal hmem) hfits,
    hwhole]

/-! ## Which texts are numerals -/

/-- A text consists of digits, at least one, and they stand for a number. -/
def WritesDigits (cs : List Char) (n : Nat) : Prop :=
  cs ≠ [] ∧ (∀ c ∈ cs, c.isDigit = true) ∧ Nat.ofDigitChars 10 cs 0 = n

/-- A text stands for a number: digits after a sign or without one.  A minus sign is for signed
numerals only. -/
inductive Writes (isSigned : Bool) : List Char → Int → Prop where
  | bare {cs : List Char} {n : Nat} (hdigits : WritesDigits cs n) : Writes isSigned cs n
  | plus {cs : List Char} {n : Nat} (hdigits : WritesDigits cs n) :
      Writes isSigned ('+' :: cs) n
  | minus {cs : List Char} {n : Nat} (hsigned : isSigned = true) (hdigits : WritesDigits cs n) :
      Writes isSigned ('-' :: cs) (-n)

section Numerals

variable {limit value n : Nat} {excess : NumeralError} {cs : List Char} {isSigned : Bool}
  {i : Int}

theorem digits_of_magnitude {digits : List Char} (hvalue : value ≤ limit)
    (hread : magnitude limit excess value digits = .ok n) :
    (∀ c ∈ digits, c.isDigit = true) ∧ Nat.ofDigitChars 10 digits value ≤ limit := by
  induction digits generalizing value with
  | nil => exact ⟨by simp, hvalue⟩
  | cons c rest ih =>
      rw [magnitude] at hread
      by_cases hdigit : c.isDigit = true
      · have hnext : digitValue? c = some (c.toNat - '0'.toNat) := if_pos hdigit
        simp only [hnext] at hread
        split at hread
        · simp at hread
        · rename_i hfits
          obtain ⟨hrest, hlimit⟩ := ih (Nat.not_lt.1 hfits) hread
          refine ⟨List.forall_mem_cons.2 ⟨hdigit, hrest⟩, ?_⟩
          rw [Nat.ofDigitChars_cons, Nat.mul_comm 10 value]
          exact hlimit
      · have hnone : digitValue? c = none := if_neg hdigit
        simp [hnone] at hread

theorem digitsOnly_eq_ok_iff :
    digitsOnly limit excess cs = .ok n ↔ WritesDigits cs n ∧ n ≤ limit := by
  unfold digitsOnly
  constructor
  · intro hread
    split at hread
    · simp at hread
    · rename_i hsome
      obtain ⟨hdigits, hlimit⟩ := digits_of_magnitude (Nat.zero_le _) hread
      obtain rfl := eq_ofDigitChars_of_magnitude hread
      exact ⟨⟨by simpa using hsome, hdigits, rfl⟩, hlimit⟩
  · rintro ⟨⟨hsome, hdigits, rfl⟩, hlimit⟩
    rw [if_neg (by simpa using hsome)]
    exact magnitude_eq_ok hdigits hlimit

theorem digitsOnly_map_eq_ok_iff {f : Nat → Int} :
    (digitsOnly limit excess cs).map f = .ok i ↔ ∃ n ≤ limit, WritesDigits cs n ∧ f n = i := by
  constructor
  · intro hread
    cases hdigits : digitsOnly limit excess cs with
    | error e => simp [hdigits, Except.map] at hread
    | ok n =>
        rw [hdigits] at hread
        obtain ⟨hwrites, hlimit⟩ := digitsOnly_eq_ok_iff.1 hdigits
        exact ⟨n, hlimit, hwrites, Except.ok.inj hread⟩
  · rintro ⟨n, hlimit, hwrites, rfl⟩
    rw [digitsOnly_eq_ok_iff.2 ⟨hwrites, hlimit⟩]
    rfl

theorem WritesDigits.isDigit_head {c : Char} (hwrites : WritesDigits (c :: cs) n) :
    c.isDigit = true :=
  hwrites.2.1 c (List.mem_cons_self ..)

theorem not_writesDigits_minus : ¬ WritesDigits ('-' :: cs) n :=
  fun hwrites => absurd hwrites.isDigit_head (by decide)

theorem not_writesDigits_plus : ¬ WritesDigits ('+' :: cs) n :=
  fun hwrites => absurd hwrites.isDigit_head (by decide)

theorem not_writes_nil : ¬ Writes isSigned [] i := by
  rintro ⟨⟨hsome, -⟩⟩
  exact hsome rfl

theorem writes_plus_iff : Writes isSigned ('+' :: cs) i ↔ ∃ n : Nat, WritesDigits cs n ∧ n = i := by
  constructor
  · intro hwrites
    cases hwrites with
    | bare hdigits => exact absurd hdigits not_writesDigits_plus
    | plus hdigits => exact ⟨_, hdigits, rfl⟩
  · rintro ⟨n, hdigits, rfl⟩
    exact .plus hdigits

theorem writes_minus_iff :
    Writes isSigned ('-' :: cs) i ↔ isSigned = true ∧ ∃ n : Nat, WritesDigits cs n ∧ -n = i := by
  constructor
  · intro hwrites
    cases hwrites with
    | bare hdigits => exact absurd hdigits not_writesDigits_minus
    | minus hsigned hdigits => exact ⟨hsigned, _, hdigits, rfl⟩
  · rintro ⟨hsigned, n, hdigits, rfl⟩
    exact .minus hsigned hdigits

theorem writes_bare_iff {c : Char} (hplus : c ≠ '+') (hminus : c ≠ '-') :
    Writes isSigned (c :: cs) i ↔ ∃ n : Nat, WritesDigits (c :: cs) n ∧ n = i := by
  constructor
  · intro hwrites
    cases hwrites with
    | bare hdigits => exact ⟨_, hdigits, rfl⟩
    | plus hdigits => exact absurd rfl hplus
    | minus hsigned hdigits => exact absurd rfl hminus
  · rintro ⟨n, hdigits, rfl⟩
    exact .bare hdigits

theorem unsigned_cons {c : Char} (hplus : c ≠ '+') (cs : List Char) :
    unsigned (c :: cs) = digitsOnly unsignedLimit .tooLarge (c :: cs) := by
  rw [unsigned]
  · simp
  · exact fun rest hcons => hplus (List.cons.inj hcons).1

theorem signed_cons {c : Char} (hplus : c ≠ '+') (hminus : c ≠ '-') (cs : List Char) :
    signed (c :: cs) = (digitsOnly signedLimit .tooLarge (c :: cs)).map Int.ofNat := by
  rw [signed]
  · simp
  · exact fun rest hcons => hplus (List.cons.inj hcons).1
  · exact fun rest hcons => hminus (List.cons.inj hcons).1

theorem unsigned_eq_ok_iff : unsigned cs = .ok n ↔ Writes false cs n ∧ n ≤ unsignedLimit := by
  cases cs with
  | nil => simp [unsigned, not_writes_nil]
  | cons c cs =>
      by_cases hplus : c = '+'
      · subst hplus
        rw [unsigned, digitsOnly_eq_ok_iff, writes_plus_iff]
        simp only [Int.natCast_inj, exists_eq_right]
      · rw [unsigned_cons hplus, digitsOnly_eq_ok_iff]
        by_cases hminus : c = '-'
        · subst hminus
          simp [writes_minus_iff, not_writesDigits_minus]
        · rw [writes_bare_iff hplus hminus]
          simp only [Int.natCast_inj, exists_eq_right]

theorem exists_le_ofNat_iff :
    (∃ n ≤ limit, WritesDigits cs n ∧ Int.ofNat n = i) ↔
      (∃ n : Nat, WritesDigits cs n ∧ n = i) ∧ -(limit + 1 : Int) ≤ i ∧ i ≤ limit := by
  simp only [Int.ofNat_eq_natCast]
  constructor
  · rintro ⟨n, hlimit, hdigits, rfl⟩
    exact ⟨⟨n, hdigits, rfl⟩, by omega, by omega⟩
  · rintro ⟨⟨n, hdigits, rfl⟩, -, hlimit⟩
    exact ⟨n, by omega, hdigits, rfl⟩

theorem exists_le_neg_iff :
    (∃ n ≤ limit + 1, WritesDigits cs n ∧ -Int.ofNat n = i) ↔
      (∃ n : Nat, WritesDigits cs n ∧ -n = i) ∧ -(limit + 1 : Int) ≤ i ∧ i ≤ limit := by
  simp only [Int.ofNat_eq_natCast]
  constructor
  · rintro ⟨n, hlimit, hdigits, rfl⟩
    exact ⟨⟨n, hdigits, rfl⟩, by omega, by omega⟩
  · rintro ⟨⟨n, hdigits, rfl⟩, hlimit, -⟩
    exact ⟨n, by omega, hdigits, rfl⟩

theorem signed_eq_ok_iff :
    signed cs = .ok i ↔ Writes true cs i ∧ -(signedLimit + 1 : Int) ≤ i ∧ i ≤ signedLimit := by
  cases cs with
  | nil => simp [signed, not_writes_nil]
  | cons c cs =>
      by_cases hplus : c = '+'
      · subst hplus
        rw [signed, digitsOnly_map_eq_ok_iff, writes_plus_iff, exists_le_ofNat_iff]
      · by_cases hminus : c = '-'
        · subst hminus
          rw [signed, digitsOnly_map_eq_ok_iff, writes_minus_iff, exists_le_neg_iff]
          simp only [true_and]
        · rw [signed_cons hplus hminus, digitsOnly_map_eq_ok_iff, writes_bare_iff hplus hminus,
            exists_le_ofNat_iff]

end Numerals
end Text
end DbSteward
