import DbSteward.Settings
import DbSteward.Proofs.Numeral
import Mathlib.Algebra.Group.Int.Defs

/-!
# Settings from the environment

Four variables set how all passes behave.  An environment is accepted exactly if each of them is
unset or holds a numeral in its range, with blanks around it or without; then the settings are
the numbers, and otherwise the first variable at fault is named.  No later adjustment makes the
batch size zero again.
-/

namespace DbSteward

namespace Text

variable {text core : List Char} {isSigned : Bool} {i : Int}

/-- A text is another one with blanks before and after it. -/
def Padded (text core : List Char) : Prop :=
  ∃ before after, text = before ++ core ++ after ∧ (∀ c ∈ before, isBlank c = true) ∧
    ∀ c ∈ after, isBlank c = true

/-- A text stands for a number, with blanks before and after its numeral. -/
def Spells (isSigned : Bool) (text : String) (i : Int) : Prop :=
  ∃ core, Padded text.toList core ∧ Writes isSigned core i

theorem exists_append_dropBlanks (text : List Char) :
    ∃ before, text = before ++ dropBlanks text ∧ ∀ c ∈ before, isBlank c = true :=
  ⟨text.takeWhile isBlank, List.takeWhile_append_dropWhile.symm,
    fun _ hmem => List.mem_takeWhile_imp hmem⟩

theorem padded_trimBlanks (text : List Char) : Padded text (trimBlanks text) := by
  obtain ⟨before, htext, hbefore⟩ := exists_append_dropBlanks text
  obtain ⟨after, hrest, hafter⟩ := exists_append_dropBlanks (dropBlanks text).reverse
  refine ⟨before, after.reverse, ?_, hbefore, fun c hmem => hafter c (List.mem_reverse.1 hmem)⟩
  rw [List.append_assoc, trimBlanks, ← List.reverse_append, ← hrest, List.reverse_reverse]
  exact htext

theorem dropBlanks_append {before : List Char} (hbefore : ∀ c ∈ before, isBlank c = true)
    (rest : List Char) : dropBlanks (before ++ rest) = dropBlanks rest :=
  List.dropWhile_append_of_pos hbefore

theorem dropBlanks_append_of_solid (hsome : core ≠ []) (hsolid : ∀ c ∈ core, isBlank c = false)
    (rest : List Char) : dropBlanks (core ++ rest) = core ++ rest := by
  obtain ⟨c, cs, rfl⟩ := List.exists_cons_of_ne_nil hsome
  exact dropBlanks_cons (hsolid c (List.mem_cons_self ..)) _

theorem trimBlanks_of_padded (hpadded : Padded text core) (hsome : core ≠ [])
    (hsolid : ∀ c ∈ core, isBlank c = false) : trimBlanks text = core := by
  obtain ⟨before, after, rfl, hbefore, hafter⟩ := hpadded
  have hback : dropBlanks (after.reverse ++ core.reverse) = core.reverse := by
    rw [dropBlanks_append fun c hmem => hafter c (List.mem_reverse.1 hmem)]
    simpa using dropBlanks_append_of_solid (by simpa using hsome : core.reverse ≠ [])
      (fun c hmem => hsolid c (List.mem_reverse.1 hmem)) []
  rw [trimBlanks, List.append_assoc, dropBlanks_append hbefore,
    dropBlanks_append_of_solid hsome hsolid, List.reverse_append, hback, List.reverse_reverse]

theorem WritesDigits.isBlank_eq_false {n : Nat} (hwrites : WritesDigits core n) :
    ∀ c ∈ core, isBlank c = false :=
  fun c hmem => isBlank_eq_false_of_isDigit (hwrites.2.1 c hmem)

theorem Writes.isBlank_eq_false (hwrites : Writes isSigned core i) :
    ∀ c ∈ core, isBlank c = false := by
  cases hwrites with
  | bare hdigits => exact hdigits.isBlank_eq_false
  | plus hdigits => exact List.forall_mem_cons.2 ⟨by decide, hdigits.isBlank_eq_false⟩
  | minus hsigned hdigits => exact List.forall_mem_cons.2 ⟨by decide, hdigits.isBlank_eq_false⟩

theorem Writes.ne_nil (hwrites : Writes isSigned core i) : core ≠ [] := by
  rintro rfl
  exact not_writes_nil hwrites

theorem spells_iff {text : String} :
    Spells isSigned text i ↔ Writes isSigned (trimBlanks text.toList) i := by
  constructor
  · rintro ⟨core, hpadded, hwrites⟩
    rw [trimBlanks_of_padded hpadded hwrites.ne_nil hwrites.isBlank_eq_false]
    exact hwrites
  · intro hwrites
    exact ⟨_, padded_trimBlanks _, hwrites⟩

end Text

namespace Settings

/-- The environment of a process that has its variables as bytes.  Only the bytes of a text are a
text. -/
def Environment.ofBytes (values : String → Option ByteArray) : Environment :=
  fun name => (values name).bind String.fromUTF8?

inductive Variable where
  | backoff
  | batchSize
  | createdDelay
  | retention
  deriving DecidableEq

namespace Variable

def name : Variable → String
  | .backoff => backoffVariable
  | .batchSize => batchSizeVariable
  | .createdDelay => createdDelayVariable
  | .retention => replicationRetentionVariable

def isSigned : Variable → Bool
  | .retention => true
  | _ => false

def least : Variable → Int
  | .batchSize => 1
  | .retention => -2 ^ 63
  | _ => 0

def greatest : Variable → Int
  | .retention => 2 ^ 63 - 1
  | _ => 2 ^ 64 - 1

/-- The number that holds where the variable is not set. -/
def standard : Variable → Int
  | .backoff => 30
  | .batchSize => 20
  | .createdDelay => 100
  | .retention => 7

/-- The place of the variable in the order in which faults are looked for. -/
def place : Variable → Nat
  | .backoff => 0
  | .batchSize => 1
  | .createdDelay => 2
  | .retention => 3

theorem place_injective : Function.Injective place := by
  intro v w
  cases v <;> cases w <;> simp [place]

theorem name_injective : Function.Injective name := by
  intro v w
  cases v <;> cases w <;> decide

end Variable

section Values

variable {values : String → Option ByteArray} {v w : Variable} {i j : Int}

/-- The variable is not there, or its bytes are no text. -/
def Variable.IsUnset (values : String → Option ByteArray) (v : Variable) : Prop :=
  ∀ text : String, values v.name ≠ some text.toByteArray

/-- The variable says a number: its standard one if it is unset, and otherwise the one that its
text stands for, which is in the range of the variable. -/
def Variable.Says (values : String → Option ByteArray) (v : Variable) (i : Int) : Prop :=
  (v.IsUnset values ∧ i = v.standard) ∨
    ∃ text : String, values v.name = some text.toByteArray ∧ Text.Spells v.isSigned text i ∧
      v.least ≤ i ∧ i ≤ v.greatest

def Variable.IsValid (values : String → Option ByteArray) (v : Variable) : Prop :=
  ∃ i, v.Says values i

def Variable.IsFirstFault (values : String → Option ByteArray) (v : Variable) : Prop :=
  ¬ v.IsValid values ∧ ∀ w : Variable, w.place < v.place → w.IsValid values

/-- The settings are what the variables say. -/
structure Follows (settings : Settings) (values : String → Option ByteArray) : Prop where
  backoff : ∃ seconds : Nat, settings.backoff = .ofSeconds seconds ∧
    Variable.backoff.Says values seconds
  batchSize : Variable.batchSize.Says values settings.batchSize
  createdDelay : Variable.createdDelay.Says values settings.createdDelay.millis
  retention : Variable.retention.Says values settings.replicationRetention.toInt

theorem Variable.IsFirstFault.unique (hv : v.IsFirstFault values) (hw : w.IsFirstFault values) :
    v = w := by
  refine place_injective (Nat.le_antisymm (Nat.not_lt.1 fun hlt => ?_) (Nat.not_lt.1 fun hlt => ?_))
  · exact hw.1 (hv.2 w hlt)
  · exact hv.1 (hw.2 v hlt)

/-! ## One variable -/

theorem ofBytes_eq_some_iff {name text : String} :
    Environment.ofBytes values name = some text ↔ values name = some text.toByteArray := by
  unfold Environment.ofBytes
  rw [Option.bind_eq_some_iff]
  constructor
  · rintro ⟨bytes, hvalue, htext⟩
    unfold String.fromUTF8? at htext
    split at htext
    · obtain rfl := Option.some.inj htext
      exact hvalue
    · simp at htext
  · intro hvalue
    refine ⟨text.toByteArray, hvalue, ?_⟩
    unfold String.fromUTF8?
    rw [dif_pos text.isValidUTF8]
    rfl

/-- Texts are found again in their bytes. -/
theorem ofBytes_toByteArray (environment : Environment) :
    Environment.ofBytes (fun name => (environment name).map String.toByteArray) = environment := by
  funext name
  refine Option.ext fun text => ?_
  rw [ofBytes_eq_some_iff, Option.map_eq_some_iff]
  constructor
  · rintro ⟨other, hvalue, hbytes⟩
    rw [← String.toByteArray_inj.1 hbytes]
    exact hvalue
  · intro hvalue
    exact ⟨text, hvalue, rfl⟩

theorem ofBytes_eq_none_iff :
    Environment.ofBytes values v.name = none ↔ v.IsUnset values := by
  rw [Option.eq_none_iff_forall_ne_some]
  exact forall_congr' fun text => not_congr ofBytes_eq_some_iff

theorem numeral_eq_ok_iff {α : Type} {environment : Environment} {name : String} {unset a : α}
    {read : List Char → Except Text.NumeralError α} :
    numeral environment name unset read = .ok a ↔
      (environment name = none ∧ a = unset) ∨
        ∃ text, environment name = some text ∧ read (Text.trimBlanks text.toList) = .ok a := by
  unfold numeral
  cases environment name with
  | none => simp [eq_comm]
  | some text =>
      cases hread : read (Text.trimBlanks text.toList) <;> simp [hread, Except.mapError]

theorem variableName_of_numeral {α : Type} {environment : Environment} {name : String} {unset : α}
    {read : List Char → Except Text.NumeralError α} {e : SettingError}
    (hread : numeral environment name unset read = .error e) : e.variableName = name := by
  unfold numeral at hread
  cases henvironment : environment name with
  | none => simp [henvironment] at hread
  | some text =>
      rw [henvironment] at hread
      cases hparse : read (Text.trimBlanks text.toList) with
      | error fault =>
          simp only [hparse, Except.mapError, Except.error.injEq] at hread
          rw [← hread]
      | ok a => simp [hparse, Except.mapError] at hread

/-- A result tells what a variable says, or names the variable if it says nothing. -/
structure Variable.Tells {α : Type} (v : Variable) (values : String → Option ByteArray)
    (number : α → Int) (result : Except SettingError α) : Prop where
  says_iff : ∀ i, v.Says values i ↔ ∃ a, result = .ok a ∧ number a = i
  names : ∀ e, result = .error e → e.variableName = v.name

namespace Variable.Tells

variable {α : Type} {number : α → Int} {result : Except SettingError α}

theorem unique (htells : v.Tells values number result) (hi : v.Says values i)
    (hj : v.Says values j) : i = j := by
  obtain ⟨a, ha, rfl⟩ := (htells.says_iff i).1 hi
  obtain ⟨b, hb, rfl⟩ := (htells.says_iff j).1 hj
  rw [Except.ok.inj (ha.symm.trans hb)]

theorem cases (htells : v.Tells values number result) :
    (∃ a, result = .ok a ∧ v.Says values (number a)) ∨
      ∃ e, result = .error e ∧ e.variableName = v.name ∧ ¬ v.IsValid values := by
  cases hresult : result with
  | ok a => exact .inl ⟨a, rfl, (htells.says_iff _).2 ⟨a, hresult, rfl⟩⟩
  | error e =>
      refine .inr ⟨e, rfl, htells.names e hresult, ?_⟩
      rintro ⟨i, hnumber⟩
      obtain ⟨a, ha, -⟩ := (htells.says_iff i).1 hnumber
      rw [hresult] at ha
      exact absurd ha (by simp)

end Variable.Tells

/-! ## The four variables -/

def backoffIn (environment : Environment) : Except SettingError Nat :=
  numeral environment backoffVariable standard.backoff.seconds Text.unsigned

def batchSizeIn (environment : Environment) : Except SettingError Nat :=
  (numeral environment batchSizeVariable standard.batchSize Text.unsigned).bind fun size =>
    if size = 0 then .error ⟨batchSizeVariable, "must be greater than zero"⟩ else .ok size

def createdDelayIn (environment : Environment) : Except SettingError Nat :=
  numeral environment createdDelayVariable standard.createdDelay.millis Text.unsigned

def retentionIn (environment : Environment) : Except SettingError Int :=
  numeral environment replicationRetentionVariable standard.replicationRetention.toInt
    Text.signed

theorem ofEnvironment_eq (environment : Environment) :
    ofEnvironment environment =
      (backoffIn environment).bind fun seconds =>
        (batchSizeIn environment).bind fun size =>
          (createdDelayIn environment).bind fun millis =>
            (retentionIn environment).bind fun days =>
              .ok ⟨.ofSeconds seconds, size, ⟨millis⟩, Int64.ofInt days⟩ := by
  unfold ofEnvironment backoffIn batchSizeIn createdDelayIn retentionIn
  cases numeral environment backoffVariable standard.backoff.seconds Text.unsigned with
  | error e => rfl
  | ok seconds =>
      cases numeral environment batchSizeVariable standard.batchSize Text.unsigned with
      | error e => rfl
      | ok size =>
          by_cases hzero : size = 0
          · subst hzero
            rfl
          · simp only [Except.bind, if_neg hzero, bind, pure, Except.pure]

theorem exists_numeral_unsigned_iff {unset : Nat} :
    (∃ n : Nat, numeral (.ofBytes values) v.name unset Text.unsigned = .ok n ∧ n = i) ↔
      (v.IsUnset values ∧ i = unset) ∨
        ∃ text : String, values v.name = some text.toByteArray ∧ Text.Spells false text i ∧
          0 ≤ i ∧ i ≤ Text.unsignedLimit := by
  simp only [numeral_eq_ok_iff, ofBytes_eq_none_iff, ofBytes_eq_some_iff, Text.unsigned_eq_ok_iff,
    ← Text.spells_iff]
  constructor
  · rintro ⟨n, ⟨hunset, rfl⟩ | ⟨text, hvalue, hspells, hlimit⟩, rfl⟩
    · exact .inl ⟨hunset, rfl⟩
    · exact .inr ⟨text, hvalue, hspells, Int.natCast_nonneg n, Int.ofNat_le.2 hlimit⟩
  · rintro (⟨hunset, rfl⟩ | ⟨text, hvalue, hspells, hnonneg, hlimit⟩)
    · exact ⟨unset, .inl ⟨hunset, rfl⟩, rfl⟩
    · obtain ⟨n, rfl⟩ := Int.eq_ofNat_of_zero_le hnonneg
      exact ⟨n, .inr ⟨text, hvalue, hspells, Int.ofNat_le.1 hlimit⟩, rfl⟩

theorem exists_numeral_signed_iff {unset : Int} :
    (∃ n : Int, numeral (.ofBytes values) v.name unset Text.signed = .ok n ∧ n = i) ↔
      (v.IsUnset values ∧ i = unset) ∨
        ∃ text : String, values v.name = some text.toByteArray ∧ Text.Spells true text i ∧
          -(Text.signedLimit + 1 : Int) ≤ i ∧ i ≤ Text.signedLimit := by
  simp only [numeral_eq_ok_iff, ofBytes_eq_none_iff, ofBytes_eq_some_iff, Text.signed_eq_ok_iff,
    ← Text.spells_iff, exists_eq_right]

theorem tells_backoff :
    Variable.backoff.Tells values Nat.cast (backoffIn (.ofBytes values)) where
  says_iff _ := exists_numeral_unsigned_iff.symm
  names _ := variableName_of_numeral

theorem tells_createdDelay :
    Variable.createdDelay.Tells values Nat.cast (createdDelayIn (.ofBytes values)) where
  says_iff _ := exists_numeral_unsigned_iff.symm
  names _ := variableName_of_numeral

theorem tells_retention :
    Variable.retention.Tells values id (retentionIn (.ofBytes values)) where
  says_iff _ := exists_numeral_signed_iff.symm
  names _ := variableName_of_numeral

theorem batchSizeIn_eq_ok_iff {environment : Environment} {size : Nat} :
    batchSizeIn environment = .ok size ↔
      numeral environment batchSizeVariable standard.batchSize Text.unsigned = .ok size ∧
        size ≠ 0 := by
  unfold batchSizeIn
  cases numeral environment batchSizeVariable standard.batchSize Text.unsigned with
  | error e => simp [Except.bind]
  | ok n =>
      by_cases hzero : n = 0
      · subst hzero
        simp only [Except.bind, if_true, Except.ok.injEq]
        grind
      · simp only [Except.bind, if_neg hzero, Except.ok.injEq]
        grind

theorem tells_batchSize :
    Variable.batchSize.Tells values Nat.cast (batchSizeIn (.ofBytes values)) where
  says_iff i := by
    have hread : (∃ a, batchSizeIn (.ofBytes values) = .ok a ∧ (a : Int) = i) ↔
        (∃ n : Nat, numeral (.ofBytes values) Variable.batchSize.name standard.batchSize
          Text.unsigned = .ok n ∧ n = i) ∧ i ≠ 0 := by
      simp only [batchSizeIn_eq_ok_iff]
      constructor
      · rintro ⟨n, ⟨hnumeral, hzero⟩, rfl⟩
        exact ⟨⟨n, hnumeral, rfl⟩, Int.natCast_ne_zero.2 hzero⟩
      · rintro ⟨⟨n, hnumeral, rfl⟩, hzero⟩
        exact ⟨n, ⟨hnumeral, Int.natCast_ne_zero.1 hzero⟩, rfl⟩
    rw [hread, exists_numeral_unsigned_iff]
    constructor
    · rintro (⟨hunset, rfl⟩ | ⟨text, hvalue, hspells, hleast, hgreatest⟩)
      · exact ⟨.inl ⟨hunset, rfl⟩, by decide⟩
      · have hpositive : (1 : Int) ≤ i := hleast
        exact ⟨.inr ⟨text, hvalue, hspells, by omega, hgreatest⟩, by omega⟩
    · rintro ⟨⟨hunset, rfl⟩ | ⟨text, hvalue, hspells, hnonneg, hlimit⟩, hzero⟩
      · exact .inl ⟨hunset, rfl⟩
      · have hpositive : (1 : Int) ≤ i := by omega
        exact .inr ⟨text, hvalue, hspells, hpositive, hlimit⟩
  names e herror := by
    unfold batchSizeIn at herror
    cases hread : numeral (.ofBytes values) batchSizeVariable standard.batchSize Text.unsigned with
    | error fault =>
        rw [hread] at herror
        obtain rfl := Except.error.inj herror
        exact variableName_of_numeral hread
    | ok size =>
        rw [hread] at herror
        simp only [Except.bind] at herror
        split at herror
        · rw [← Except.error.inj herror]
          rfl
        · simp at herror

/-! ## All variables -/

theorem toInt_ofInt_of_says (hnumber : Variable.retention.Says values i) :
    (Int64.ofInt i).toInt = i := by
  have hrange : -2 ^ 63 ≤ i ∧ i ≤ 2 ^ 63 - 1 := by
    rcases hnumber with ⟨-, rfl⟩ | ⟨text, -, -, hleast, hgreatest⟩
    · decide
    · exact ⟨hleast, hgreatest⟩
  exact Int64.toInt_ofInt_of_le hrange.1 (by omega)

/-- A reading of the environment ends in settings that follow it or at its first fault. -/
def Decides (values : String → Option ByteArray) (result : Except SettingError Settings) : Prop :=
  (∃ settings, result = .ok settings ∧ settings.Follows values) ∨
    ∃ e v, result = .error e ∧ e.variableName = Variable.name v ∧ v.IsFirstFault values

theorem Variable.Tells.decides_bind {α : Type} {number : α → Int} {result : Except SettingError α}
    {next : α → Except SettingError Settings} (htells : v.Tells values number result)
    (hearlier : ∀ w : Variable, w.place < v.place → w.IsValid values)
    (hnext : ∀ a, v.Says values (number a) → Decides values (next a)) :
    Decides values (result.bind next) := by
  rcases htells.cases with ⟨a, hresult, hnumber⟩ | ⟨e, hresult, hname, hfault⟩
  · rw [hresult]
    exact hnext a hnumber
  · rw [hresult]
    exact .inr ⟨e, v, rfl, hname, hfault, hearlier⟩

theorem decides_ofEnvironment (values : String → Option ByteArray) :
    Decides values (ofEnvironment (.ofBytes values)) := by
  rw [ofEnvironment_eq]
  refine tells_backoff.decides_bind ?_ fun seconds hbackoff => ?_
  · intro w hearlier
    exact absurd hearlier (Nat.not_lt_zero _)
  refine tells_batchSize.decides_bind ?_ fun size hbatch => ?_
  · intro w hearlier
    cases w with
    | backoff => exact ⟨_, hbackoff⟩
    | _ => simp [Variable.place] at hearlier
  refine tells_createdDelay.decides_bind ?_ fun millis hdelay => ?_
  · intro w hearlier
    cases w with
    | backoff => exact ⟨_, hbackoff⟩
    | batchSize => exact ⟨_, hbatch⟩
    | _ => simp [Variable.place] at hearlier
  refine tells_retention.decides_bind ?_ fun days hretention => ?_
  · intro w hearlier
    cases w with
    | backoff => exact ⟨_, hbackoff⟩
    | batchSize => exact ⟨_, hbatch⟩
    | createdDelay => exact ⟨_, hdelay⟩
    | retention => simp at hearlier
  have hkept : (Int64.ofInt days).toInt = days := toInt_ofInt_of_says hretention
  exact .inl ⟨_, rfl, ⟨seconds, rfl, hbackoff⟩, hbatch, hdelay, hkept.symm ▸ hretention⟩

theorem Follows.isValid {settings : Settings} (hfollows : settings.Follows values)
    (v : Variable) : v.IsValid values := by
  cases v with
  | backoff =>
      obtain ⟨seconds, -, hnumber⟩ := hfollows.backoff
      exact ⟨_, hnumber⟩
  | batchSize => exact ⟨_, hfollows.batchSize⟩
  | createdDelay => exact ⟨_, hfollows.createdDelay⟩
  | retention => exact ⟨_, hfollows.retention⟩

theorem Follows.unique {settings others : Settings} (hfollows : settings.Follows values)
    (hothers : others.Follows values) : settings = others := by
  obtain ⟨seconds, hbackoff, hseconds⟩ := hfollows.backoff
  obtain ⟨otherSeconds, hotherBackoff, hotherSeconds⟩ := hothers.backoff
  have hsame := Int.ofNat_inj.1 (tells_backoff.unique hseconds hotherSeconds)
  have hbatch := Int.ofNat_inj.1 (tells_batchSize.unique hfollows.batchSize hothers.batchSize)
  have hdelay :=
    Int.ofNat_inj.1 (tells_createdDelay.unique hfollows.createdDelay hothers.createdDelay)
  have hretention := tells_retention.unique hfollows.retention hothers.retention
  cases settings with
  | mk backoff batchSize createdDelay retention =>
      cases others with
      | mk otherBackoff otherBatch otherDelay otherRetention =>
          simp only at hbackoff hotherBackoff hbatch hdelay hretention
          cases createdDelay
          cases otherDelay
          simp only at hdelay
          rw [hbackoff, hotherBackoff, hsame, hbatch, hdelay, Int64.toInt_inj.1 hretention]

theorem ofEnvironment_eq_ok_iff {settings : Settings} :
    ofEnvironment (.ofBytes values) = .ok settings ↔ settings.Follows values := by
  rcases decides_ofEnvironment values with
    ⟨others, hothers, hfollows⟩ | ⟨e, v, herror, -, hfault⟩
  · rw [hothers]
    constructor
    · rintro ⟨⟩
      exact hfollows
    · intro hsettings
      rw [hfollows.unique hsettings]
  · rw [herror]
    exact iff_of_false (by simp) fun hsettings => hfault.1 (hsettings.isValid v)

theorem ofEnvironment_eq_error_iff :
    (∃ reason, ofEnvironment (.ofBytes values) = .error ⟨v.name, reason⟩) ↔
      v.IsFirstFault values := by
  rcases decides_ofEnvironment values with
    ⟨settings, hsettings, hfollows⟩ | ⟨⟨name, reason⟩, w, herror, hname, hfault⟩
  · rw [hsettings]
    exact iff_of_false (by simp) fun hfault => hfault.1 (hfollows.isValid v)
  · obtain rfl : name = w.name := hname
    rw [herror]
    constructor
    · rintro ⟨_, hsame⟩
      obtain rfl := Variable.name_injective (SettingError.mk.inj (Except.error.inj hsame)).1
      exact hfault
    · intro hother
      obtain rfl := hfault.unique hother
      exact ⟨reason, rfl⟩

end Values

/-! ## Adjustments -/

inductive Adjustment where
  | backoff (after : Duration)
  | batchSize (size : Nat)
  | createdDelay (delay : Duration)
  | retention (days : Int64)

def Adjustment.apply (settings : Settings) : Adjustment → Settings
  | .backoff after => settings.withBackoff after
  | .batchSize size => settings.withBatchSize size
  | .createdDelay delay => settings.withCreatedDelay delay
  | .retention days => settings.withReplicationRetention days

def adjusted (settings : Settings) (adjustments : List Adjustment) : Settings :=
  adjustments.foldl Adjustment.apply settings

theorem Adjustment.one_le_batchSize {settings : Settings} (hsettings : 1 ≤ settings.batchSize)
    (adjustment : Adjustment) : 1 ≤ (adjustment.apply settings).batchSize := by
  cases adjustment with
  | batchSize size => exact Nat.le_max_right size 1
  | _ => exact hsettings

theorem one_le_batchSize_adjusted {settings : Settings} (hsettings : 1 ≤ settings.batchSize)
    (adjustments : List Adjustment) : 1 ≤ (settings.adjusted adjustments).batchSize := by
  induction adjustments generalizing settings with
  | nil => exact hsettings
  | cons adjustment rest ih => exact ih (adjustment.one_le_batchSize hsettings)

theorem Follows.one_le_batchSize {values : String → Option ByteArray} {settings : Settings}
    (hfollows : settings.Follows values) : 1 ≤ settings.batchSize := by
  rcases hfollows.batchSize with ⟨-, hstandard⟩ | ⟨text, -, -, hleast, -⟩
  · have hsize : (settings.batchSize : Int) = 20 := hstandard
    omega
  · have hsize : (1 : Int) ≤ settings.batchSize := hleast
    omega

/-- An environment is accepted exactly if each variable is unset or holds a numeral in its range,
and the settings are then those numbers.  Otherwise the error names the first variable at fault.
The batch size stays positive whatever is adjusted later. -/
theorem environment_accepted_iff_valid (values : String → Option ByteArray) :
    ((∃ settings, ofEnvironment (.ofBytes values) = .ok settings) ↔
        ∀ v : Variable, v.IsValid values) ∧
      (∀ settings, ofEnvironment (.ofBytes values) = .ok settings ↔ settings.Follows values) ∧
      (∀ v : Variable, (∃ reason, ofEnvironment (.ofBytes values) = .error ⟨v.name, reason⟩) ↔
        v.IsFirstFault values) ∧
      ∀ settings, ofEnvironment (.ofBytes values) = .ok settings →
        ∀ adjustments, 1 ≤ (settings.adjusted adjustments).batchSize := by
  refine ⟨?_, fun settings => ofEnvironment_eq_ok_iff, fun v => ofEnvironment_eq_error_iff,
    fun settings hsettings =>
      one_le_batchSize_adjusted (ofEnvironment_eq_ok_iff.1 hsettings).one_le_batchSize⟩
  constructor
  · rintro ⟨settings, hsettings⟩
    exact (ofEnvironment_eq_ok_iff.1 hsettings).isValid
  · intro hvalid
    rcases decides_ofEnvironment values with
      ⟨settings, hsettings, -⟩ | ⟨e, v, -, -, hfault⟩
    · exact ⟨settings, hsettings⟩
    · exact absurd (hvalid v) hfault.1

/-- An environment with a padded batch size and the least retention. -/
def Environment.samplePadded : Environment := fun name =>
  if name = batchSizeVariable then some "\u2003+007\n"
  else if name = replicationRetentionVariable then some "-9223372036854775808"
  else none

/-- Blanks, a plus sign and leading zeros do no harm, and the least signed word is in range. -/
theorem padded_numerals_accepted :
    ∃ values settings, ofEnvironment (.ofBytes values) = .ok settings ∧
      settings.batchSize = 7 ∧ settings.replicationRetention = Int64.minValue ∧
      settings.Follows values ∧
      1 ≤ (settings.adjusted [.batchSize 0, .backoff ⟨5⟩]).batchSize := by
  have hread : ofEnvironment
      (.ofBytes fun name => (Environment.samplePadded name).map String.toByteArray) =
        .ok ⟨.ofSeconds 30, 7, ⟨100⟩, Int64.minValue⟩ := by
    rw [ofBytes_toByteArray]
    decide +kernel
  obtain ⟨-, hfollows, -, hsize⟩ := environment_accepted_iff_valid
    fun name => (Environment.samplePadded name).map String.toByteArray
  exact ⟨_, _, hread, rfl, rfl, (hfollows _).1 hread, hsize _ hread _⟩

end Settings
end DbSteward
