import DbSteward.Proofs.Gate
import DbSteward.Proofs.Setting

/-!
# The printed backoff

A decision to retry carries the backoff that is set for all passes, and a plan prints it in
milliseconds as an unsigned word.  Seconds are read over the whole range of such a word, so that
their milliseconds need not fit: the print is exact up to a bound, and beyond it the backoff that
is printed is another one.
-/

namespace DbSteward

namespace Json

/-- What an object holds under a name. -/
def member? (name : String) : Json → Option Json
  | .object members => members.lookup name
  | _ => none

end Json

namespace Plan

/-- What a plan is printed with as its backoff. -/
def printedBackoff (plan : Plan) : Option Json :=
  (plan.toJson.member? "decision").bind (Json.member? "after_ms")

theorem printedBackoff_of_retryAfter {plan : Plan} {after : Duration} {reason : String}
    (hdecision : plan.decision = .retryAfter after reason) :
    plan.printedBackoff = some (.integer after.wordMillis) := by
  rw [printedBackoff, toJson, hdecision]
  rfl

theorem after_eq {kind : Kind} {settings : Settings} {desired observed : Document kind}
    {after : Duration} {reason : String}
    (hdecision : (Plan.of settings desired observed).decision = .retryAfter after reason) :
    after = settings.backoff := by
  rw [decision_eq] at hdecision
  unfold decide at hdecision
  rcases Decision.ofPhase_cases settings.backoff (kind.phase observed.status.live) kind.noun
      observed.status.live with ⟨-, hphase⟩ | ⟨-, other, hphase⟩ | ⟨-, -, other, hphase⟩
  · simp [hphase] at hdecision
  · simp [hphase] at hdecision
  · rw [hphase] at hdecision
    cases hlive : observed.status.live with
    | none =>
        rw [hlive] at hdecision
        exact (Decision.retryAfter.inj hdecision).1.symm
    | some status =>
        rw [hlive] at hdecision
        dsimp only at hdecision
        split at hdecision
        · exact Decision.noConfusion hdecision
        · exact (Decision.retryAfter.inj hdecision).1.symm

end Plan

/-- A plan to retry, made with settings from an environment. -/
structure Retry (kind : Kind) where
  values : String → Option ByteArray
  settings : Settings
  desired : Document kind
  observed : Document kind
  after : Duration
  reason : String
  accepted : Settings.ofEnvironment (.ofBytes values) = .ok settings
  retries : (Plan.of settings desired observed).decision = .retryAfter after reason

namespace Retry

open Settings (Variable)

variable {kind : Kind}

def plan (retry : Retry kind) : Plan :=
  .of retry.settings retry.desired retry.observed

/-- The environment of the plan sets a backoff of some seconds. -/
def Sets (retry : Retry kind) (seconds : Nat) : Prop :=
  Variable.backoff.Says retry.values seconds

theorem after_of_sets {retry : Retry kind} {seconds : Nat} (hsets : retry.Sets seconds) :
    retry.after = .ofSeconds seconds := by
  obtain ⟨other, hbackoff, hother⟩ :=
    (Settings.ofEnvironment_eq_ok_iff.1 retry.accepted).backoff
  obtain rfl : other = seconds :=
    Int.ofNat_inj.1 (Settings.tells_backoff.unique hother hsets)
  rw [Plan.after_eq retry.retries, hbackoff]

theorem sets_of_settings {retry : Retry kind} {seconds : Nat}
    (hbackoff : retry.settings.backoff = .ofSeconds seconds) : retry.Sets seconds := by
  obtain ⟨other, hother, hnumber⟩ := (Settings.ofEnvironment_eq_ok_iff.1 retry.accepted).backoff
  have hmillis : 1000 * other = 1000 * seconds :=
    congrArg Duration.millis (hother.symm.trans hbackoff)
  obtain rfl : other = seconds := Nat.eq_of_mul_eq_mul_left (by decide) hmillis
  exact hnumber

/-- The milliseconds are printed without the part that is beyond a word. -/
theorem printedBackoff_eq {retry : Retry kind} {seconds : Nat} (hsets : retry.Sets seconds) :
    retry.plan.printedBackoff =
      some (.integer (1000 * seconds % UInt64.size : Nat)) := by
  rw [plan, Plan.printedBackoff_of_retryAfter retry.retries, after_of_sets hsets]
  rfl

theorem millis_fit_iff {seconds : Nat} :
    1000 * seconds % UInt64.size = 1000 * seconds ↔ seconds ≤ 18446744073709551 := by
  rw [Nat.mod_eq_iff_lt (by decide), UInt64.size]
  omega

/-- A plan prints its backoff exactly if its milliseconds fit an unsigned word, and shorter
backoffs are then printed as shorter ones. -/
theorem printed_backoff_exact_iff (retry : Retry kind) {seconds : Nat}
    (hsets : retry.Sets seconds) :
    ∃ printed : Nat, retry.plan.printedBackoff = some (.integer printed) ∧
      (printed = 1000 * seconds ↔ seconds ≤ 18446744073709551) ∧
      ∀ {otherKind : Kind} (other : Retry otherKind) (shorter : Nat), other.Sets shorter →
        shorter < seconds → seconds ≤ 18446744073709551 →
          ∃ less : Nat, other.plan.printedBackoff = some (.integer less) ∧ less < printed := by
  refine ⟨_, printedBackoff_eq hsets, millis_fit_iff, ?_⟩
  intro otherKind other shorter hshorter hlt hfits
  refine ⟨_, printedBackoff_eq hshorter, ?_⟩
  rw [millis_fit_iff.2 hfits, millis_fit_iff.2 (hlt.le.trans hfits)]
  omega

end Retry

/-- A cluster that is being modified. -/
def Document.sampleBusy : Document .dbCluster where
  metadata := .blank
  spec := clusterSchema.blank
  status := ⟨some "arn:main", some "modifying", [], ⟨none, none⟩⟩

def Settings.Environment.sampleBackoff (text : String) : Settings.Environment := fun name =>
  if name = Settings.backoffVariable then some text else none

/-- A plan to retry for a cluster that is being modified. -/
def Retry.sample {text : String} {settings : Settings}
    (haccepted : Settings.ofEnvironment (.sampleBackoff text) = .ok settings) :
    Retry .dbCluster where
  values := fun name => (Settings.Environment.sampleBackoff text name).map String.toByteArray
  settings := settings
  desired := .sampleBusy
  observed := .sampleBusy
  after := settings.backoff
  reason := "DB cluster in 'modifying' state, cannot be modified until 'available'."
  accepted := by rw [Settings.ofBytes_toByteArray, haccepted]
  retries := rfl

namespace Retry

theorem exists_sample (text : String) (seconds : Nat)
    (haccepted : Settings.ofEnvironment (.sampleBackoff text) =
      .ok { Settings.standard with backoff := .ofSeconds seconds }) :
    ∃ retry : Retry .dbCluster, retry.Sets seconds :=
  ⟨.sample haccepted, sets_of_settings rfl⟩

/-- The longest backoff that is printed as it is. -/
theorem longest_backoff_printed :
    ∃ retry : Retry .dbCluster, retry.Sets 18446744073709551 ∧
      retry.plan.printedBackoff = some (.integer 18446744073709551000) := by
  obtain ⟨retry, hsets⟩ := exists_sample "18446744073709551" 18446744073709551 (by decide +kernel)
  obtain ⟨printed, hprinted, hexact, -⟩ := printed_backoff_exact_iff retry hsets
  obtain rfl := hexact.2 (le_refl _)
  exact ⟨retry, hsets, hprinted⟩

/-- One second more, and the plan prints less than half a second, while a backoff of a single
second is printed as it is. -/
theorem longer_backoff_printed_as_shorter :
    (∃ retry : Retry .dbCluster, retry.Sets 18446744073709552 ∧
        retry.plan.printedBackoff = some (.integer 384) ∧
        retry.plan.printedBackoff ≠ some (.integer (1000 * 18446744073709552))) ∧
      ∃ retry : Retry .dbCluster, retry.Sets 1 ∧
        retry.plan.printedBackoff = some (.integer 1000) := by
  constructor
  · obtain ⟨retry, hsets⟩ := exists_sample "18446744073709552" 18446744073709552 (by decide +kernel)
    have hprinted : retry.plan.printedBackoff = some (.integer 384) := printedBackoff_eq hsets
    refine ⟨retry, hsets, hprinted, ?_⟩
    rw [hprinted]
    simp
  · obtain ⟨retry, hsets⟩ := exists_sample "1" 1 (by decide +kernel)
    exact ⟨retry, hsets, printedBackoff_eq hsets⟩

end Retry
end DbSteward
