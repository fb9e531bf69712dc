import DbSteward.Moment.Printer
import DbSteward.Moment.Reader
import DbSteward.Proofs.Calendar
import DbSteward.Proofs.Numeral

/-!
# Moments and their texts

The text of a moment reads back as the moment.  The reader takes more texts than the printer
makes, but only for moments that the printer can write: those of the years that are kept, with
the nanoseconds of a leap second only at the end of a minute.
-/

namespace DbSteward
namespace Moment

open Text (decimalPadded EndsDigits)

/-! ## Reading the parts -/

/-- Digits are read up to the greatest count or up to what follows them. -/
theorem number?_append {most : Nat} {digits rest : List Char}
    (hdigits : ∀ c ∈ digits, c.isDigit = true) (hsome : digits ≠ [])
    (hmost : digits.length ≤ most) (hend : digits.length = most ∨ EndsDigits rest) :
    number? most (digits ++ rest) = some (Nat.ofDigitChars 10 digits 0, rest) := by
  have htaken : ((digits ++ rest).take most).takeWhile Char.isDigit = digits := by
    rw [List.take_append, List.take_of_length_le hmost]
    refine Text.takeWhile_digits hdigits ?_
    rcases hend with hfull | hother
    · rw [hfull, Nat.sub_self, List.take_zero]
      exact Text.endsDigits_nil
    · intro c cs hcons
      obtain ⟨cs', hrest⟩ : ∃ cs', rest = c :: cs' := by
        cases rest with
        | nil => simp at hcons
        | cons d ds =>
            cases hcount : most - digits.length with
            | zero => simp [hcount] at hcons
            | succ count =>
                rw [hcount, List.take_succ_cons] at hcons
                exact ⟨ds, by rw [(List.cons.inj hcons).1]⟩
      exact hother c cs' hrest
  have hnonempty : digits.isEmpty = false := by simpa using hsome
  simp only [number?, htaken, hnonempty, Bool.false_eq_true, if_false, List.drop_left]
  rfl

theorem number?_decimalPadded {most width n : Nat} {rest : List Char} (hwidth : 0 < width)
    (hfits : n < 10 ^ width) (hmost : width ≤ most) (hend : width = most ∨ EndsDigits rest) :
    number? most (decimalPadded width n ++ rest) = some (n, rest) := by
  have hlength := Text.length_decimalPadded hwidth hfits
  rw [number?_append (fun _ => Text.isDigit_of_mem_decimalPadded)
    (Text.decimalPadded_ne_nil width n) (by omega) (by rwa [hlength]),
    Text.ofDigitChars_decimalPadded]

theorem dropBlanks_decimalPadded (width n : Nat) (rest : List Char) :
    Text.dropBlanks (decimalPadded width n ++ rest) = decimalPadded width n ++ rest := by
  obtain ⟨c, cs, hcons⟩ := List.exists_cons_of_ne_nil (Text.decimalPadded_ne_nil width n)
  have hdigit : c.isDigit = true :=
    Text.isDigit_of_mem_decimalPadded (hcons ▸ List.mem_cons_self ..)
  rw [hcons, List.cons_append,
    Text.dropBlanks_cons (Text.isBlank_eq_false_of_isDigit hdigit)]

theorem pair?_decimalPadded {n : Nat} (hfits : n < 100) (rest : List Char) :
    pair? (decimalPadded 2 n ++ rest) = some (n, rest) := by
  rw [pair?, dropBlanks_decimalPadded]
  exact number?_decimalPadded (by decide) hfits (by decide) (.inl rfl)

theorem mark?_cons {mark : Char} (hblank : Text.isBlank mark = false) (rest : List Char) :
    mark? mark (mark :: rest) = some rest := by
  rw [mark?, Text.dropBlanks_cons hblank]
  simp [Text.after?]

theorem year?_of_isDigit {c : Char} (hdigit : c.isDigit = true) (cs : List Char) :
    year? (c :: cs) = (number? 4 (c :: cs)).map fun (n, rest) => (Int.ofNat n, rest) := by
  rw [year?, Text.dropBlanks_cons (Text.isBlank_eq_false_of_isDigit hdigit)]
  split
  · rename_i hminus
    rw [(List.cons.inj hminus).1] at hdigit
    exact absurd hdigit (by decide)
  · rename_i hplus
    rw [(List.cons.inj hplus).1] at hdigit
    exact absurd hdigit (by decide)
  · rfl

/-- After a sign all digits of a year are read. -/
theorem number?_of_signed (n : Nat) {rest : List Char} (hend : EndsDigits rest) :
    number? (decimalPadded 4 n ++ rest).length (decimalPadded 4 n ++ rest) = some (n, rest) := by
  rw [number?_append (fun _ => Text.isDigit_of_mem_decimalPadded)
    (Text.decimalPadded_ne_nil 4 n) (by simp) (.inr hend), Text.ofDigitChars_decimalPadded]

theorem year?_yearText (year : Int) {rest : List Char} (hend : EndsDigits rest) :
    year? (yearText year ++ rest) = some (year, rest) := by
  unfold yearText
  split
  · rename_i hshort
    simp only [Bool.and_eq_true, decide_eq_true_eq] at hshort
    obtain ⟨c, cs, hcons⟩ := List.exists_cons_of_ne_nil (Text.decimalPadded_ne_nil 4 year.natAbs)
    have hdigit : c.isDigit = true :=
      Text.isDigit_of_mem_decimalPadded (hcons ▸ List.mem_cons_self ..)
    rw [hcons, List.cons_append, year?_of_isDigit hdigit, ← List.cons_append, ← hcons,
      number?_decimalPadded (by decide) (by omega) (by decide) (.inl rfl)]
    simp only [Option.map_some, Option.some.injEq, Prod.mk.injEq, and_true, Int.ofNat_eq_natCast]
    omega
  · rename_i hlong
    simp only [Bool.and_eq_true, decide_eq_true_eq] at hlong
    have hread := number?_of_signed year.natAbs hend
    split
    · rename_i hnegative
      rw [List.cons_append, year?, Text.dropBlanks_cons (by decide)]
      simp only [hread, Option.map_some, Option.some.injEq, Prod.mk.injEq, and_true,
        Int.ofNat_eq_natCast]
      omega
    · rename_i hpositive
      rw [List.cons_append, year?, Text.dropBlanks_cons (by decide)]
      simp only [hread, Option.map_some, Option.some.injEq, Prod.mk.injEq, and_true,
        Int.ofNat_eq_natCast]
      omega

/-- A fraction of up to nine digits counts as if it were filled up with zeros. -/
theorem nanos?_decimalPadded {places n : Nat} (hplaces : 0 < places) (hmost : places ≤ 9)
    (hfits : n < 10 ^ places) {rest : List Char} (hend : EndsDigits rest) :
    nanos? ('.' :: (decimalPadded places n ++ rest)) = some (n * 10 ^ (9 - places), rest) := by
  have hdigits : ∀ c ∈ decimalPadded places n, c.isDigit = true :=
    fun _ => Text.isDigit_of_mem_decimalPadded
  rw [nanos?, number?_decimalPadded hplaces hfits hmost (.inr hend),
    Text.takeWhile_digits hdigits hend, Text.length_decimalPadded hplaces hfits]
  simp [hend.dropWhile_eq]

theorem nanos?_fractionText {nanos : Nat} (hless : nanos < 1000000000) (rest : List Char) :
    nanos? (fractionText nanos ++ 'Z' :: rest) = some (nanos, 'Z' :: rest) := by
  have hend : EndsDigits ('Z' :: rest) := Text.endsDigits_cons (by decide) rest
  unfold fractionText
  split
  · rename_i hzero
    rw [beq_iff_eq] at hzero
    simp [nanos?, hzero]
  split
  · rename_i hmillis
    rw [beq_iff_eq] at hmillis
    rw [List.cons_append, nanos?_decimalPadded (by decide) (by decide) (by omega) hend]
    simp only [Option.some.injEq, Prod.mk.injEq, and_true]
    omega
  split
  · rename_i hmicros
    rw [beq_iff_eq] at hmicros
    rw [List.cons_append, nanos?_decimalPadded (by decide) (by decide) (by omega) hend]
    simp only [Option.some.injEq, Prod.mk.injEq, and_true]
    omega
  · rw [List.cons_append, nanos?_decimalPadded (by decide) (by decide) (by omega) hend]
    simp

/-! ## Stamps -/

theorem day_bounds {d : CalendarDay} (hvalid : d.isValid = true) :
    1 ≤ d.month ∧ d.month ≤ 12 ∧ 1 ≤ d.day ∧ d.day ≤ 31 := by
  simp only [CalendarDay.isValid, Bool.and_eq_true, decide_eq_true_eq] at hvalid
  have hlast : CalendarDay.daysInMonth d.year d.month ≤ 31 := by
    unfold CalendarDay.daysInMonth
    repeat' split
    all_goals decide
  omega

/-- The text of a day and a time of universal time. -/
def stamp (day : CalendarDay) (hour minute second nanos : Nat) : List Char :=
  yearText day.year ++ '-' :: decimalPadded 2 day.month ++ '-' :: decimalPadded 2 day.day
      ++ 'T' :: decimalPadded 2 hour ++ ':' :: decimalPadded 2 minute
      ++ ':' :: decimalPadded 2 second
      ++ fractionText nanos ++ ['Z']

/-- The moment of a day and a time of day with an offset, the second sixty a leap second. -/
def assembled (day : CalendarDay) (hour minute second nanos : Nat) (offset : Int) : Moment :=
  ⟨day.toDays * secondsPerDay + hour * 3600 + minute * 60 + (min second 59 : Nat) - offset,
    if second == 60 then nanos + 1000000000 else nanos⟩

theorem ofText?_stamp {day : CalendarDay} {hour minute second nanos : Nat}
    (hvalid : day.isValid = true) (hrange : inRange day = true) (hhour : hour ≤ 23)
    (hminute : minute ≤ 59) (hsecond : second ≤ 60) (hnanos : nanos < 1000000000)
    (hmoment : inRange (assembled day hour minute second nanos 0).day = true) :
    ofText? (String.ofList (stamp day hour minute second nanos)) =
      some (assembled day hour minute second nanos 0) := by
  obtain ⟨-, hmonth, -, hday⟩ := day_bounds hvalid
  have hminus : Text.isBlank '-' = false := by decide
  have hcolon : Text.isBlank ':' = false := by decide
  rw [ofText?, String.toList_ofList, stamp]
  simp only [List.append_assoc, List.cons_append, bind, Option.bind]
  -- the date, up to the mark before the time
  rw [year?_yearText _ (Text.endsDigits_cons (by decide) _)]
  simp only [mark?_cons hminus, pair?_decimalPadded (show day.month < 100 by omega),
    pair?_decimalPadded (show day.day < 100 by omega)]
  -- the time, and nothing after its offset
  simp only [mark?_cons hcolon, pair?_decimalPadded (show hour < 100 by omega),
    pair?_decimalPadded (show minute < 100 by omega),
    pair?_decimalPadded (show second < 100 by omega), nanos?_fractionText hnanos,
    Text.dropBlanks_cons (show Text.isBlank 'Z' = false by decide), offset?]
  rw [assembled, if_pos ?_]
  simp only [Text.dropBlanks, List.dropWhile_nil, List.isEmpty_nil, hvalid, hrange, hhour, hminute,
    hsecond, Bool.and_true, Bool.true_and, decide_true, Int.natAbs_zero]
  exact hmoment

/-! ## Moments that have a text -/

/-- The moment lies in the years that are kept, and only the last second of a minute is longer
than a billion nanoseconds. -/
structure Proper (m : Moment) : Prop where
  nanos_lt : m.nanos < 2000000000
  leap : 1000000000 ≤ m.nanos → m.seconds % 60 = 59
  in_range : inRange m.day = true

/-- A moment is written as the stamp of its day and its time of day, a leap second as the
second sixty. -/
theorem Proper.exists_stamp {m : Moment} (hproper : m.Proper) :
    ∃ hour minute second nanos : Nat,
      hour ≤ 23 ∧ minute ≤ 59 ∧ second ≤ 60 ∧ nanos < 1000000000 ∧
        m.text = String.ofList (stamp m.day hour minute second nanos) ∧
        assembled m.day hour minute second nanos 0 = m := by
  obtain ⟨hnanos, hleap, -⟩ := hproper
  have hdays : m.day.toDays = m.seconds / 86400 := CalendarDay.toDays_ofDays _
  obtain ⟨elapsed, helapsed⟩ : ∃ elapsed : Nat, m.seconds % 86400 = elapsed :=
    Int.eq_ofNat_of_zero_le (Int.emod_nonneg _ (by decide))
  have hsplit : m.seconds = m.seconds / 86400 * 86400 + elapsed := by omega
  have hless : elapsed < 86400 := by omega
  by_cases hlong : 1000000000 ≤ m.nanos
  · have hlast : elapsed % 60 = 59 := by have := hleap hlong; omega
    refine ⟨elapsed / 3600, elapsed / 60 % 60, elapsed % 60 + 1, m.nanos - 1000000000, by omega,
      by omega, by omega, by omega, ?_, ?_⟩
    · simp only [text, stamp, secondsPerDay, helapsed, Int.toNat_natCast, if_pos hlong]
    · refine congrArg₂ Moment.mk (?_ : _ = m.seconds) (?_ : _ = m.nanos)
      · rw [hdays, secondsPerDay]
        omega
      · rw [hlast, if_pos (by decide)]
        omega
  · refine ⟨elapsed / 3600, elapsed / 60 % 60, elapsed % 60, m.nanos, by omega, by omega, by omega,
      by omega, ?_, ?_⟩
    · simp only [text, stamp, secondsPerDay, helapsed, Int.toNat_natCast, if_neg hlong,
        Nat.add_zero]
    · have hnotLeap : elapsed % 60 ≠ 60 := by omega
      refine congrArg₂ Moment.mk (?_ : _ = m.seconds) (?_ : _ = m.nanos)
      · rw [hdays, secondsPerDay]
        omega
      · rw [if_neg (by simpa using hnotLeap)]

theorem Proper.ofText?_text {m : Moment} (hproper : m.Proper) : ofText? m.text = some m := by
  obtain ⟨hour, minute, second, nanos, hhour, hminute, hsecond, hnanos, htext, hmoment⟩ :=
    hproper.exists_stamp
  have hvalid : m.day.isValid = true := CalendarDay.isValid_ofDays _
  rw [htext, ofText?_stamp hvalid hproper.in_range hhour hminute hsecond
    hnanos (by rw [hmoment]; exact hproper.in_range), hmoment]

/-! ## Moments that a text gives -/

theorem number?_lt {most n : Nat} {cs rest : List Char}
    (hread : number? most cs = some (n, rest)) :
    n < 10 ^ most ∧ n < 10 ^ (cs.takeWhile Char.isDigit).length := by
  simp only [number?] at hread
  split at hread
  · cases hread
  obtain ⟨rfl, -⟩ := Prod.mk.inj (Option.some.inj hread)
  have hdigits : ∀ c ∈ (cs.take most).takeWhile Char.isDigit, c.isDigit = true :=
    fun _ => List.mem_takeWhile_imp
  have hless := Text.ofDigitChars_lt hdigits
  have hshort : ((cs.take most).takeWhile Char.isDigit).length ≤ most := by
    rw [← List.take_takeWhile]
    exact List.length_take_le ..
  have hwithin : ((cs.take most).takeWhile Char.isDigit).length
      ≤ (cs.takeWhile Char.isDigit).length := by
    rw [← List.take_takeWhile]
    exact List.length_take_le' ..
  exact ⟨hless.trans_le (Nat.pow_le_pow_right (by decide) hshort),
    hless.trans_le (Nat.pow_le_pow_right (by decide) hwithin)⟩

theorem nanos?_lt {nanos : Nat} {cs rest : List Char} (hread : nanos? cs = some (nanos, rest)) :
    nanos < 1000000000 := by
  unfold nanos? at hread
  split at hread
  · rename_i digits
    obtain ⟨⟨n, rest'⟩, hnumber, hreturn⟩ := Option.bind_eq_some_iff.1 hread
    obtain ⟨rfl, -⟩ := Prod.mk.inj (Option.some.inj hreturn)
    obtain ⟨hmost, hplaces⟩ := number?_lt hnumber
    generalize (digits.takeWhile Char.isDigit).length = places at hplaces ⊢
    rcases Nat.lt_or_ge 9 places with hlong | hshort
    · rw [Nat.sub_eq_zero_of_le hlong.le]
      simpa using hmost
    · calc n * 10 ^ (9 - places) < 10 ^ places * 10 ^ (9 - places) :=
            Nat.mul_lt_mul_of_pos_right hplaces (Nat.pow_pos (by decide))
        _ = 10 ^ 9 := by rw [← Nat.pow_add, Nat.add_sub_cancel' hshort]
  · obtain ⟨rfl, -⟩ := Prod.mk.inj (Option.some.inj hread)
    decide

theorem clock?_mod_sixty {offset : Int} {cs rest : List Char}
    (hread : clock? cs = some (offset, rest)) : offset % 60 = 0 := by
  unfold clock? at hread
  split at hread
  · split at hread
    · obtain ⟨⟨hours, _⟩, -, hread⟩ := Option.bind_eq_some_iff.1 hread
      simp only at hread
      split at hread
      · split at hread
        · obtain ⟨⟨minutes, _⟩, -, hreturn⟩ := Option.bind_eq_some_iff.1 hread
          obtain ⟨rfl, -⟩ := Prod.mk.inj (Option.some.inj hreturn)
          omega
        · cases hread
      · cases hread
    · cases hread
  · cases hread

/-- Offsets are whole minutes. -/
theorem offset?_mod_sixty {offset : Int} {cs rest : List Char}
    (hread : offset? cs = some (offset, rest)) : offset % 60 = 0 := by
  have hback : ∀ {cs : List Char} {turn : Int × List Char → Int × List Char},
      (∀ read, (turn read).1 = -read.1) → (clock? cs).map turn = some (offset, rest) →
        offset % 60 = 0 := by
    intro cs turn hturn hread
    obtain ⟨⟨n, rest'⟩, hnumber, hreturn⟩ := Option.map_eq_some_iff.1 hread
    have hoffset := hturn (n, rest')
    rw [hreturn] at hoffset
    have := clock?_mod_sixty hnumber
    omega
  unfold offset? at hread
  split at hread
  · obtain ⟨rfl, -⟩ := Prod.mk.inj (Option.some.inj hread); rfl
  · obtain ⟨rfl, -⟩ := Prod.mk.inj (Option.some.inj hread); rfl
  · exact clock?_mod_sixty hread
  · exact hback (fun _ => rfl) hread
  · exact hback (fun _ => rfl) hread
  · split at hread
    · obtain ⟨rfl, -⟩ := Prod.mk.inj (Option.some.inj hread); rfl
    · cases hread
  · cases hread

/-- What the reader checks makes a proper moment. -/
theorem Proper.of_checks {day : CalendarDay} {hour minute second nanos : Nat} {offset : Int}
    (hnanos : nanos < 1000000000) (hminutes : offset % 60 = 0)
    (hrange : inRange (assembled day hour minute second nanos offset).day = true) :
    (assembled day hour minute second nanos offset).Proper := by
  refine ⟨?_, ?_, hrange⟩
  · unfold assembled
    dsimp only
    split <;> omega
  · unfold assembled
    dsimp only
    intro hleap
    split at hleap
    · rename_i hsixty
      rw [beq_iff_eq.1 hsixty, secondsPerDay]
      omega
    · omega

/-- The date of a text is followed by one of three marks. -/
theorem exists_of_timeMark {cs : List Char} {readTime : List Char → Option Moment} {m : Moment}
    (hread : (match cs with
      | 'T' :: cs => some cs >>= readTime
      | 't' :: cs => some cs >>= readTime
      | ' ' :: cs => some cs >>= readTime
      | _ => none >>= readTime) = some m) : ∃ cs, readTime cs = some m := by
  split at hread
  · exact ⟨_, hread⟩
  · exact ⟨_, hread⟩
  · exact ⟨_, hread⟩
  · cases hread

theorem Proper.of_ofText? {text : String} {m : Moment} (hread : ofText? text = some m) :
    m.Proper := by
  unfold ofText? at hread
  obtain ⟨⟨year, _⟩, -, hread⟩ := Option.bind_eq_some_iff.1 hread
  obtain ⟨_, -, hread⟩ := Option.bind_eq_some_iff.1 hread
  obtain ⟨⟨month, _⟩, -, hread⟩ := Option.bind_eq_some_iff.1 hread
  obtain ⟨_, -, hread⟩ := Option.bind_eq_some_iff.1 hread
  obtain ⟨⟨dayOfMonth, afterDate⟩, -, hread⟩ := Option.bind_eq_some_iff.1 hread
  obtain ⟨cs, hread⟩ := exists_of_timeMark hread
  obtain ⟨⟨hour, _⟩, -, hread⟩ := Option.bind_eq_some_iff.1 hread
  obtain ⟨_, -, hread⟩ := Option.bind_eq_some_iff.1 hread
  obtain ⟨⟨minute, _⟩, -, hread⟩ := Option.bind_eq_some_iff.1 hread
  obtain ⟨_, -, hread⟩ := Option.bind_eq_some_iff.1 hread
  obtain ⟨⟨second, _⟩, -, hread⟩ := Option.bind_eq_some_iff.1 hread
  obtain ⟨⟨nanos, _⟩, hnanos, hread⟩ := Option.bind_eq_some_iff.1 hread
  obtain ⟨⟨offset, _⟩, hoffset, hread⟩ := Option.bind_eq_some_iff.1 hread
  obtain ⟨hchecks, hreturn⟩ := Option.ite_none_right_eq_some.1 hread
  simp only [Bool.and_eq_true] at hchecks
  exact Option.some.inj hreturn ▸
    .of_checks (nanos?_lt hnanos) (offset?_mod_sixty hoffset) hchecks.2

end Moment
end DbSteward
