import DbSteward.Proofs.Dialogue
import DbSteward.Proofs.Text

/-!
# When replication starts and stops

What is wanted and what is observed of the replication of backups decide which call is due, if
any.  `Due` says when a call is due, and `Rests` how a pass ends where none is.  Both are read
off the two sides alone; the step that the steward chooses is compared with them once, and
between them they leave no case out.
-/

namespace DbSteward
namespace Replication

/-- A number of days is known, and it is above zero. -/
def Positive (days : Option Int64) : Prop :=
  ∃ d, days = some d ∧ 0 < d

theorem positive_iff {days : Option Int64} : Positive days ↔ 0 < days.getD (-1) := by
  cases days with
  | none => simp [Positive]
  | some d => simp [Positive]

/-- The region to stop a replication in: the fourth part of the name of the first active one,
or the desired region if there is no such part or it is empty. -/
def stopRegion? (intent : Intent) (observed : Observation) : Option String :=
  match ((observed.arns.headD "").toList.splitOn ':')[3]? with
  | some (c :: cs) => some (String.ofList (c :: cs))
  | _ => intent.region

theorem stopRegion?_eq (intent : Intent) {observed : Observation} (hlive : observed.arns ≠ []) :
    (observed.region? <|> intent.region) = stopRegion? intent observed := by
  obtain ⟨arn, others, harns⟩ := List.exists_cons_of_ne_nil hlive
  rw [Observation.region?, stopRegion?, harns, List.head?_cons, List.headD_cons,
    Option.bind_some, regionOf?, Text.parts_eq_splitOn]
  cases (arn.toList.splitOn ':')[3]? with
  | none => rfl
  | some part =>
      cases part with
      | nil => rfl
      | cons c cs => simp

section Due

variable (settings : Settings) (intent : Intent) (observed : Observation)

/-- A call is due. -/
inductive Due : Call → Prop where
  | start {region source : String} (hwanted : intent.enabled = true) (hidle : observed.arns = [])
      (hregion : intent.region = some region) (hsource : observed.source = some source)
      (hbackups : Positive observed.backupRetention) :
      Due (.startReplication (some region)
        { source := source
          retention := intent.retention.getD settings.replicationRetention
          kmsKey := intent.kmsKey })
  | stop {region source : String} (hunwanted : intent.enabled = false)
      (hlive : observed.arns ≠ []) (hsource : observed.source = some source)
      (hregion : stopRegion? intent observed = some region) :
      Due (.stopReplication (some region) source)

/-- No call is due, and this is how a pass ends. -/
inductive Rests : Except Failure Decision → Prop where
  | agreement (hagree : intent.enabled = true ↔ observed.arns ≠ []) : Rests (.ok .proceed)
  | noRegion (hwanted : intent.enabled = true) (hidle : observed.arns = [])
      (hregion : intent.region = none) :
      Rests (.error (.invalidSpec "BackupCrossRegionReplicationDestinationRegion"
        "required when BackupCrossRegionReplication is true"))
  | noStartSource (hwanted : intent.enabled = true) (hidle : observed.arns = [])
      (hregion : intent.region ≠ none) (hsource : observed.source = none) :
      Rests (.error (.missingObservation
        "DB instance ARN is required to enable cross-region backup replication"))
  /-- Nobody has yet seen for how long backups are kept. -/
  | unobserved (hwanted : intent.enabled = true) (hidle : observed.arns = [])
      (hregion : intent.region ≠ none) (hsource : observed.source ≠ none)
      (hunobserved : ∀ days, observed.backupRetention = some days → days < 0) :
      Rests (.ok (.retryAfter settings.backoff "backup retention period not yet observed"))
  | noBackups (hwanted : intent.enabled = true) (hidle : observed.arns = [])
      (hregion : intent.region ≠ none) (hsource : observed.source ≠ none)
      (hoff : observed.backupRetention = some 0) (hundesired : ¬ Positive intent.backupRetention) :
      Rests (.error (.invalidSpec "BackupRetentionPeriod"
        ("automated backups must be enabled (backupRetentionPeriod > 0) before enabling "
          ++ "cross-region backup replication")))
  | pending (hwanted : intent.enabled = true) (hidle : observed.arns = [])
      (hregion : intent.region ≠ none) (hsource : observed.source ≠ none)
      (hoff : observed.backupRetention = some 0) (hdesired : Positive intent.backupRetention)
      (hpending : Positive observed.pendingRetention) :
      Rests (.ok (.retryAfter settings.backoff "backup retention period modification pending"))
  /-- Backups are off and about to be switched on by the modify call. -/
  | activation (hwanted : intent.enabled = true) (hidle : observed.arns = [])
      (hregion : intent.region ≠ none) (hsource : observed.source ≠ none)
      (hoff : observed.backupRetention = some 0) (hdesired : Positive intent.backupRetention)
      (hnotPending : ¬ Positive observed.pendingRetention) : Rests (.ok .proceed)
  | noStopSource (hunwanted : intent.enabled = false) (hlive : observed.arns ≠ [])
      (hsource : observed.source = none) :
      Rests (.error (.missingObservation
        "DB instance ARN is required to disable cross-region backup replication"))
  | noStopRegion (hunwanted : intent.enabled = false) (hlive : observed.arns ≠ [])
      (hsource : observed.source ≠ none) (hregion : stopRegion? intent observed = none) :
      Rests (.error (.missingObservation
        "could not determine destination region for stopping replication"))

end Due

/-! ## The step that is chosen -/

/-- The call that a step makes. -/
def Step.call? : Step → Option Call
  | .start region request => some (.startReplication (some region) request)
  | .stop region source => some (.stopReplication (some region) source)
  | .nothing => none
  | .wait _ => none

/-- The decision after a step that makes no call. -/
def Step.rest (settings : Settings) : Step → Decision
  | .wait reason => .retryAfter settings.backoff reason
  | _ => .proceed

variable {settings : Settings} {intent : Intent} {observed : Observation}

theorem isReplicating_iff : observed.isReplicating = true ↔ observed.arns ≠ [] := by
  simp [Observation.isReplicating]

theorem step_of_start (hwanted : intent.enabled = true) (hidle : observed.arns = []) :
    step settings intent observed = starting settings intent observed := by
  have hnone : observed.isReplicating = false := by
    rw [← Bool.not_eq_true, isReplicating_iff, hidle]
    simp
  rw [step, hwanted, hnone]

theorem step_of_stop (hunwanted : intent.enabled = false) (hlive : observed.arns ≠ []) :
    step settings intent observed = stopping intent observed := by
  rw [step, hunwanted, isReplicating_iff.2 hlive]

theorem step_of_agree (hagree : intent.enabled = true ↔ observed.arns ≠ []) :
    step settings intent observed = .ok .nothing := by
  have hsame : intent.enabled = observed.isReplicating := by
    rw [Bool.eq_iff_iff, isReplicating_iff]
    exact hagree
  rw [step, hsame]
  cases observed.isReplicating with
  | true => rfl
  | false => rfl

/-- Where a start is wanted and its region and source are known, the days for which backups are
kept decide. -/
theorem starting_of_known {region source : String} (hregion : intent.region = some region)
    (hsource : observed.source = some source) :
    starting settings intent observed =
      if observed.backupRetention.getD (-1) < 0 then .ok (.wait unobservedReason)
      else if observed.backupRetention.getD (-1) = 0 then activation intent observed
      else
        .ok <| .start region
          { source := source
            retention := intent.retention.getD settings.replicationRetention
            kmsKey := intent.kmsKey } := by
  rw [starting, hregion, hsource]

theorem starting_of_off (hregion : intent.region ≠ none) (hsource : observed.source ≠ none)
    (hoff : observed.backupRetention = some 0) :
    starting settings intent observed = activation intent observed := by
  obtain ⟨region, hregion⟩ := Option.ne_none_iff_exists'.1 hregion
  obtain ⟨source, hsource⟩ := Option.ne_none_iff_exists'.1 hsource
  rw [starting_of_known hregion hsource, hoff]
  rfl

theorem activation_of_positive (hdesired : Positive intent.backupRetention) :
    activation intent observed =
      if 0 < observed.pendingRetention.getD (-1) then .ok (.wait pendingReason)
      else .ok .nothing := by
  have hnot : ¬ intent.backupRetention.getD (-1) ≤ 0 := by
    rw [Int64.not_le]
    exact positive_iff.1 hdesired
  rw [activation, if_neg hnot]

/-- Backups that are off and desired leave the step to the modify call, unless their being
switched on is pending. -/
theorem step_of_activation (hwanted : intent.enabled = true) (hidle : observed.arns = [])
    (hregion : intent.region ≠ none) (hsource : observed.source ≠ none)
    (hoff : observed.backupRetention = some 0) (hdesired : Positive intent.backupRetention)
    (hnotPending : ¬ Positive observed.pendingRetention) :
    step settings intent observed = .ok .nothing := by
  rw [positive_iff] at hnotPending
  rw [step_of_start hwanted hidle, starting_of_off hregion hsource hoff,
    activation_of_positive hdesired, if_neg hnotPending]

theorem step_of_due {c : Call} (hdue : Due settings intent observed c) :
    ∃ s, step settings intent observed = .ok s ∧ s.call? = some c := by
  cases hdue with
  | @start region source hwanted hidle hregion hsource hbackups =>
      obtain ⟨days, hdays, hpositive⟩ := hbackups
      have hnotBelow : ¬ days < 0 := Int64.not_lt.2 (Int64.le_of_lt hpositive)
      have hnotZero : days ≠ 0 := (Int64.ne_of_lt hpositive).symm
      rw [step_of_start hwanted hidle, starting_of_known hregion hsource, hdays,
        Option.getD_some, if_neg hnotBelow, if_neg hnotZero]
      exact ⟨_, rfl, rfl⟩
  | @stop region source hunwanted hlive hsource hregion =>
      rw [step_of_stop hunwanted hlive, stopping, stopRegion?_eq intent hlive, hsource, hregion]
      exact ⟨_, rfl, rfl⟩

/-- How a pass ends after a step without a call. -/
inductive Quiet (settings : Settings) : Except Failure Step → Except Failure Decision → Prop where
  | rests {s : Step} (hnone : s.call? = none) : Quiet settings (.ok s) (.ok (s.rest settings))
  | fails (failure : Failure) : Quiet settings (.error failure) (.error failure)

theorem step_of_rests {result : Except Failure Decision}
    (hrests : Rests settings intent observed result) :
    Quiet settings (step settings intent observed) result := by
  cases hrests with
  | agreement hagree =>
      rw [step_of_agree hagree]
      exact .rests rfl
  | noRegion hwanted hidle hregion =>
      rw [step_of_start hwanted hidle, starting, hregion]
      exact .fails _
  | noStartSource hwanted hidle hregion hsource =>
      obtain ⟨region, hregion⟩ := Option.ne_none_iff_exists'.1 hregion
      rw [step_of_start hwanted hidle, starting, hregion, hsource]
      exact .fails _
  | unobserved hwanted hidle hregion hsource hunobserved =>
      obtain ⟨region, hregion⟩ := Option.ne_none_iff_exists'.1 hregion
      obtain ⟨source, hsource⟩ := Option.ne_none_iff_exists'.1 hsource
      have hbelow : observed.backupRetention.getD (-1) < 0 := by
        cases hdays : observed.backupRetention with
        | none => decide
        | some days => exact hunobserved days hdays
      rw [step_of_start hwanted hidle, starting_of_known hregion hsource, if_pos hbelow]
      exact .rests (s := .wait _) rfl
  | noBackups hwanted hidle hregion hsource hoff hundesired =>
      have hnone : intent.backupRetention.getD (-1) ≤ 0 := by
        rwa [positive_iff, Int64.not_lt] at hundesired
      rw [step_of_start hwanted hidle, starting_of_off hregion hsource hoff, activation,
        if_pos hnone]
      exact .fails _
  | pending hwanted hidle hregion hsource hoff hdesired hpending =>
      rw [step_of_start hwanted hidle, starting_of_off hregion hsource hoff,
        activation_of_positive hdesired, if_pos (positive_iff.1 hpending)]
      exact .rests (s := .wait _) rfl
  | activation hwanted hidle hregion hsource hoff hdesired hnotPending =>
      rw [step_of_activation hwanted hidle hregion hsource hoff hdesired hnotPending]
      exact .rests rfl
  | noStopSource hunwanted hlive hsource =>
      rw [step_of_stop hunwanted hlive, stopping, hsource]
      exact .fails _
  | noStopRegion hunwanted hlive hsource hregion =>
      obtain ⟨source, hsource⟩ := Option.ne_none_iff_exists'.1 hsource
      rw [step_of_stop hunwanted hlive, stopping, stopRegion?_eq intent hlive, hsource, hregion]
      exact .fails _

/-- No case is left out. -/
theorem due_or_rests (settings : Settings) (intent : Intent) (observed : Observation) :
    (∃ c, Due settings intent observed c) ∨ ∃ result, Rests settings intent observed result := by
  by_cases hagree : intent.enabled = true ↔ observed.arns ≠ []
  · exact .inr ⟨_, .agreement hagree⟩
  cases henabled : intent.enabled with
  | true =>
      have hidle : observed.arns = [] := by simpa [henabled] using hagree
      by_cases hregion : intent.region = none
      · exact .inr ⟨_, .noRegion henabled hidle hregion⟩
      by_cases hsource : observed.source = none
      · exact .inr ⟨_, .noStartSource henabled hidle hregion hsource⟩
      by_cases hbackups : Positive observed.backupRetention
      · obtain ⟨region, hregion⟩ := Option.ne_none_iff_exists'.1 hregion
        obtain ⟨source, hsource⟩ := Option.ne_none_iff_exists'.1 hsource
        exact .inl ⟨_, .start henabled hidle hregion hsource hbackups⟩
      by_cases hoff : observed.backupRetention = some 0
      · by_cases hdesired : Positive intent.backupRetention
        · by_cases hpending : Positive observed.pendingRetention
          · exact .inr ⟨_, .pending henabled hidle hregion hsource hoff hdesired hpending⟩
          · exact .inr ⟨_, .activation henabled hidle hregion hsource hoff hdesired hpending⟩
        · exact .inr ⟨_, .noBackups henabled hidle hregion hsource hoff hdesired⟩
      · refine .inr ⟨_, .unobserved henabled hidle hregion hsource fun days hdays => ?_⟩
        have hnotPositive : ¬ 0 < days := fun hpositive => hbackups ⟨days, hdays, hpositive⟩
        have hnotZero : days ≠ 0 := fun hzero => hoff (hzero ▸ hdays)
        exact Int64.lt_of_le_of_ne (Int64.not_lt.1 hnotPositive) hnotZero
  | false =>
      have hlive : observed.arns ≠ [] := by simpa [henabled] using hagree
      by_cases hsource : observed.source = none
      · exact .inr ⟨_, .noStopSource henabled hlive hsource⟩
      by_cases hregion : stopRegion? intent observed = none
      · exact .inr ⟨_, .noStopRegion henabled hlive hsource hregion⟩
      · obtain ⟨region, hregion⟩ := Option.ne_none_iff_exists'.1 hregion
        obtain ⟨source, hsource⟩ := Option.ne_none_iff_exists'.1 hsource
        exact .inl ⟨_, .stop henabled hlive hsource hregion⟩

end Replication

/-! ## What a pass makes of it -/

/-- The service refuses the call with an error which says that the replication already is as
the call would make it. -/
def Call.TellsItIsSo : Call → ApiError → Prop
  | .startReplication _ _, e =>
      "already replicating".toList <:+: e.code.toList ∨
        "already replicating".toList <:+: e.message.toList
  | .stopReplication _ _, e =>
      "not replicating".toList <:+: e.code.toList ∨
        "not replicating".toList <:+: e.message.toList
  | _, _ => False

theorem Call.excuses_iff {c : Call} {e : ApiError} : c.excuses e = true ↔ c.TellsItIsSo e := by
  have hmentions : ∀ needle : String, e.mentions needle = true ↔
      needle.toList <:+: e.code.toList ∨ needle.toList <:+: e.message.toList := by
    intro needle
    rw [ApiError.mentions, Bool.or_eq_true, Text.mentions_iff, Text.mentions_iff]
  cases c with
  | startReplication region request => exact hmentions _
  | stopReplication region source => exact hmentions _
  | _ => simp [excuses, TellsItIsSo]

namespace Pass

/-- What becomes of a pass once its call was answered. -/
def afterAnswer (c : Call) : Except ApiError c.Answer → Except Failure Decision
  | .ok _ => .ok .proceed
  | .error e => if c.excuses e then .ok .proceed else .error (.api e)

theorem runIn_then_proceed (needle : String) (pass : Pass Unit) (world : World) :
    runIn world (unlessMentioned needle pass >>= fun _ => pure Decision.proceed) =
      ((overlooking needle (runIn world pass).1).map fun _ => .proceed, (runIn world pass).2) := by
  rw [runIn_bind, runIn_unlessMentioned]
  cases overlooking needle (runIn world pass).1 with
  | ok done => rfl
  | error failure => rfl

theorem runIn_takeStep_of_cancelled {settings : Settings} {step : Replication.Step} {c : Call}
    (hcall : step.call? = some c) {world : World} (hcancelled : world.cancelled = true) :
    runIn world (takeStep settings step) = (.error .cancelled, world) := by
  cases step with
  | nothing => simp [Replication.Step.call?] at hcall
  | wait reason => simp [Replication.Step.call?] at hcall
  | start region request =>
      rw [takeStep, runIn_then_proceed, runIn_call_of_cancelled hcancelled]
      rfl
  | stop region source =>
      rw [takeStep, runIn_then_proceed, runIn_call_of_cancelled hcancelled]
      rfl

theorem runIn_takeStep_of_active {settings : Settings} {step : Replication.Step} {c : Call}
    (hcall : step.call? = some c) {world : World} (hactive : world.cancelled = false) :
    runIn world (takeStep settings step) =
      (afterAnswer c (world.service.perform c).1,
        afterCall world c (world.service.perform c).1 (world.service.perform c).2) := by
  cases step with
  | nothing => simp [Replication.Step.call?] at hcall
  | wait reason => simp [Replication.Step.call?] at hcall
  | start region request =>
      obtain rfl := Option.some.inj hcall
      rw [takeStep, runIn_then_proceed, runIn_call_of_active hactive]
      refine Prod.ext ?_ rfl
      cases (world.service.perform (.startReplication (some region) request)).1 with
      | ok done => rfl
      | error e => by_cases hexcused : e.mentions "already replicating" = true <;>
          simp [Except.mapError, overlooking, afterAnswer, Call.excuses, hexcused, Except.map]
  | stop region source =>
      obtain rfl := Option.some.inj hcall
      rw [takeStep, runIn_then_proceed, runIn_call_of_active hactive]
      refine Prod.ext ?_ rfl
      cases (world.service.perform (.stopReplication (some region) source)).1 with
      | ok done => rfl
      | error e => by_cases hexcused : e.mentions "not replicating" = true <;>
          simp [Except.mapError, overlooking, afterAnswer, Call.excuses, hexcused, Except.map]

theorem runIn_takeStep_of_none {settings : Settings} {step : Replication.Step}
    (hnone : step.call? = none) (world : World) :
    runIn world (takeStep settings step) = (.ok (step.rest settings), world) := by
  cases step with
  | nothing => rfl
  | wait reason => rfl
  | start region request => simp [Replication.Step.call?] at hnone
  | stop region source => simp [Replication.Step.call?] at hnone

section Settling

variable {settings : Settings} {intent : Replication.Intent} {observed : Replication.Observation}
  {world : World}

theorem runIn_settleReplication_of_ok {step : Replication.Step}
    (hstep : Replication.step settings intent observed = .ok step) :
    runIn world (settleReplication settings intent observed) =
      runIn world (takeStep settings step) := by
  rw [settleReplication, hstep, liftExcept_ok_bind]

theorem runIn_settleReplication_of_rests {result : Except Failure Decision}
    (hrests : Replication.Rests settings intent observed result) :
    runIn world (settleReplication settings intent observed) = (result, world) := by
  have hquiet := Replication.step_of_rests hrests
  generalize hstep : Replication.step settings intent observed = chosen at hquiet
  cases hquiet with
  | rests hnone => rw [runIn_settleReplication_of_ok hstep, runIn_takeStep_of_none hnone]
  | fails failure => rw [settleReplication, runIn_bind, hstep, runIn_liftExcept]

theorem runIn_settleReplication_of_cancelled {c : Call}
    (hdue : Replication.Due settings intent observed c) (hcancelled : world.cancelled = true) :
    runIn world (settleReplication settings intent observed) = (.error .cancelled, world) := by
  obtain ⟨step, hstep, hcall⟩ := Replication.step_of_due hdue
  rw [runIn_settleReplication_of_ok hstep, runIn_takeStep_of_cancelled hcall hcancelled]

theorem runIn_settleReplication_of_active {c : Call}
    (hdue : Replication.Due settings intent observed c) (hactive : world.cancelled = false) :
    runIn world (settleReplication settings intent observed) =
      (afterAnswer c (world.service.perform c).1,
        afterCall world c (world.service.perform c).1 (world.service.perform c).2) := by
  obtain ⟨step, hstep, hcall⟩ := Replication.step_of_due hdue
  rw [runIn_settleReplication_of_ok hstep, runIn_takeStep_of_active hcall hactive]

theorem calls_settleReplication_of_active {c : Call}
    (hdue : Replication.Due settings intent observed c) (hactive : world.cancelled = false) :
    calls world (settleReplication settings intent observed) = [c] := by
  have hlog := congrArg (fun outcome => outcome.2.log)
    (runIn_settleReplication_of_active hdue hactive)
  exact calls_of_log_eq hlog

end Settling

/-- The replication of backups is settled by the call that is due and by no other.  A pass that
is cancelled before it makes none; a call that is refused fails the pass, unless the service
says that the replication already is as it should be. -/
theorem settleReplication_makes_due_call (settings : Settings) (intent : Replication.Intent)
    (observed : Replication.Observation) (world : World) :
    (calls world (settleReplication settings intent observed)).length ≤ 1 ∧
      (∀ c, c ∈ calls world (settleReplication settings intent observed) ↔
        Replication.Due settings intent observed c ∧ world.cancelled = false) ∧
      (∀ c, Replication.Due settings intent observed c → world.cancelled = true →
        (runIn world (settleReplication settings intent observed)).1 = .error .cancelled) ∧
      (∀ c, Replication.Due settings intent observed c → world.cancelled = false →
        (∀ answer, (world.service.perform c).1 = .ok answer →
          (runIn world (settleReplication settings intent observed)).1 = .ok .proceed) ∧
        ∀ e, (world.service.perform c).1 = .error e →
          (c.TellsItIsSo e →
            (runIn world (settleReplication settings intent observed)).1 = .ok .proceed) ∧
          (¬ c.TellsItIsSo e →
            (runIn world (settleReplication settings intent observed)).1 = .error (.api e))) ∧
      (∀ result, Replication.Rests settings intent observed result →
        runIn world (settleReplication settings intent observed) = (result, world)) ∧
      ((∃ c, Replication.Due settings intent observed c) ∨
        ∃ result, Replication.Rests settings intent observed result) := by
  have hcases := Replication.due_or_rests settings intent observed
  have hcalls : calls world (settleReplication settings intent observed) = [] ∨
      ∃ c, Replication.Due settings intent observed c ∧ world.cancelled = false ∧
        calls world (settleReplication settings intent observed) = [c] := by
    rcases hcases with ⟨c, hdue⟩ | ⟨result, hrests⟩
    · cases hcancelled : world.cancelled with
      | true =>
          exact .inl (calls_eq_nil_of_runIn
            (runIn_settleReplication_of_cancelled hdue hcancelled))
      | false => exact .inr ⟨c, hdue, rfl, calls_settleReplication_of_active hdue hcancelled⟩
    · exact .inl (calls_eq_nil_of_runIn (runIn_settleReplication_of_rests hrests))
  refine ⟨?_, ?_, ?_, ?_, fun result => runIn_settleReplication_of_rests, hcases⟩
  · rcases hcalls with hnone | ⟨c, -, -, hone⟩
    · simp [hnone]
    · simp [hone]
  · intro c
    constructor
    · intro hmem
      rcases hcalls with hnone | ⟨other, hdue, hactive, hone⟩
      · simp [hnone] at hmem
      · rw [hone, List.mem_singleton] at hmem
        exact hmem ▸ ⟨hdue, hactive⟩
    · rintro ⟨hdue, hactive⟩
      rw [calls_settleReplication_of_active hdue hactive]
      exact List.mem_singleton_self c
  · intro c hdue hcancelled
    rw [runIn_settleReplication_of_cancelled hdue hcancelled]
  · intro c hdue hactive
    rw [runIn_settleReplication_of_active hdue hactive]
    refine ⟨fun answer hanswer => by rw [hanswer, afterAnswer], fun e hanswer => ?_⟩
    rw [hanswer, afterAnswer, ← Call.excuses_iff]
    exact ⟨fun hexcused => if_pos hexcused, fun hnot => if_neg hnot⟩

end Pass
end DbSteward
