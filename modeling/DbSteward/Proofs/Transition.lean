import DbSteward.Proofs.Ending

/-!
# Transition times

A condition remembers when its status last flipped.  This file follows the conditions of a
resource along passes each of which goes on from what the one before left.  The moments only
move on flips, with one exception: a pass whose plan proceeds takes the terminal condition
back before its update, and if the update meets an obstacle puts it there anew.
-/

namespace DbSteward

/-- A pass over a resource that gave something back. -/
structure Turn (kind : Kind) where
  context : Context
  world : World
  desired : Document kind
  observed : Document kind
  outcome : Outcome kind
  after : World
  runs : Pass.runIn world (Pass.settle context desired observed) = (.ok outcome, after)

namespace Turn

variable {kind : Kind}

def plan (turn : Turn kind) : Plan :=
  .of turn.context.settings turn.desired turn.observed

/-- The conditions that the pass found. -/
def before (turn : Turn kind) : List Condition :=
  turn.observed.status.conditions

/-- The conditions that the pass left. -/
def conditions (turn : Turn kind) : List Condition :=
  turn.outcome.document.status.conditions

/-- The turns of all runs that begin with a list of conditions and carry them from each pass to
the next. -/
inductive Carried (start : List Condition) : Turn kind → Prop where
  | first {turn : Turn kind} (hstart : turn.before = start) : Carried start turn
  | next {earlier turn : Turn kind} (hearlier : Carried start earlier)
      (hnext : turn.before = earlier.conditions) : Carried start turn

theorem tells (turn : Turn kind) :
    Pass.Tells turn.context.now (Pass.conditionsKept turn.plan turn.before)
      turn.outcome.decision turn.conditions :=
  Pass.settle_tells turn.runs

theorem distinctKinds_conditions (turn : Turn kind)
    (hbefore : Conditions.DistinctKinds turn.before) :
    Conditions.DistinctKinds turn.conditions :=
  turn.tells.distinctKinds (Pass.distinctKinds_conditionsKept _ hbefore)

theorem Carried.distinctKinds {start : List Condition} {turn : Turn kind}
    (hcarried : Carried start turn) (hstart : Conditions.DistinctKinds start) :
    Conditions.DistinctKinds turn.before := by
  induction hcarried with
  | first hfirst => exact hfirst ▸ hstart
  | @next earlier turn hearlier hnext ih => exact hnext ▸ earlier.distinctKinds_conditions ih

/-! ## One pass -/

variable {turn : Turn kind} {c d : Condition}

theorem since_synced (hbefore : Conditions.find? turn.before .synced = some c)
    (hafter : Conditions.find? turn.conditions .synced = some d) (hsame : d.status = c.status) :
    d.since = c.since := by
  obtain ⟨status, message, hplaced⟩ := turn.tells.find?_synced
  rw [Pass.find?_conditionsKept_synced, hbefore, hafter] at hplaced
  obtain rfl := Option.some.inj hplaced
  exact Conditions.since_placed _ _ _ _ _ hsame

/-- Where the plan stops the pass, the terminal condition is revised or left alone. -/
theorem since_terminal_of_stop (hdecision : turn.plan.decision ≠ .proceed)
    (hbefore : Conditions.find? turn.before .terminal = some c)
    (hafter : Conditions.find? turn.conditions .terminal = some d)
    (hsame : d.status = c.status) : d.since = c.since := by
  rcases turn.tells.find?_terminal with ⟨-, hkept⟩ | ⟨reason, -, hplaced⟩
  · rw [Pass.conditionsKept_of_stop hdecision, hbefore, hafter] at hkept
    rw [Option.some.inj hkept]
  · rw [Pass.conditionsKept_of_stop hdecision, hbefore, hafter] at hplaced
    obtain rfl := Option.some.inj hplaced
    exact Conditions.since_placed _ _ _ _ _ hsame

/-- Where the plan proceeds, a terminal condition that is there in the end is a new one. -/
theorem since_terminal_of_proceed (hdecision : turn.plan.decision = .proceed)
    (hafter : Conditions.find? turn.conditions .terminal = some d) :
    d.since = turn.context.now := by
  rcases turn.tells.find?_terminal with ⟨-, hkept⟩ | ⟨reason, -, hplaced⟩
  · rw [Pass.conditionsKept_of_proceed hdecision, Conditions.find?_clearTerminal_terminal,
      hafter] at hkept
    exact absurd hkept (by simp)
  · rw [Pass.conditionsKept_of_proceed hdecision, Conditions.find?_clearTerminal_terminal,
      hafter] at hplaced
    rw [Option.some.inj hplaced]
    rfl

/-! ## Runs -/

/-- Along a run that begins with at most one condition of each kind this stays so, and a
condition with the same status before and after a pass has the same moment, unless it is the
terminal one and the plan proceeded: then it is as old as the pass. -/
theorem since_along_run {start : List Condition} (hstart : Conditions.DistinctKinds start)
    (hcarried : Carried start turn) :
    Conditions.DistinctKinds turn.conditions ∧
      ∀ c ∈ turn.before, ∀ d ∈ turn.conditions, d.kind = c.kind → d.status = c.status →
        d.since =
          if d.kind = .terminal ∧ turn.plan.decision = .proceed then turn.context.now
          else c.since := by
  have hbefore := hcarried.distinctKinds hstart
  have hafter := turn.distinctKinds_conditions hbefore
  refine ⟨hafter, fun c hc d hd hkind hsame => ?_⟩
  have hfindBefore := (Conditions.find?_eq_some_iff hbefore).2 ⟨hc, hkind.symm⟩
  have hfindAfter := (Conditions.find?_eq_some_iff hafter).2 ⟨hd, rfl⟩
  cases hterminal : d.kind with
  | synced =>
      rw [hterminal] at hfindBefore hfindAfter
      rw [if_neg (by simp)]
      exact since_synced hfindBefore hfindAfter hsame
  | terminal =>
      rw [hterminal] at hfindBefore hfindAfter
      by_cases hdecision : turn.plan.decision = .proceed
      · rw [if_pos ⟨rfl, hdecision⟩]
        exact since_terminal_of_proceed hdecision hfindAfter
      · rw [if_neg fun h => hdecision h.2]
        exact since_terminal_of_stop hdecision hfindBefore hfindAfter hsame

/-- Two passes in a row that an unknown parameter stops.  The synced condition is as old as the
first of them, the terminal one as the second. -/
theorem stopped_twice_moments :
    ∃ earlier turn : Turn (.parameterGroup .dbInstance),
      earlier.before = [] ∧ turn.before = earlier.conditions ∧
      turn.conditions =
        [⟨.synced, true, none, none, ⟨0, 0⟩⟩,
          ⟨.terminal, true, some "unknown parameter: bogus", none, ⟨60, 0⟩⟩] ∧
      Conditions.DistinctKinds turn.conditions ∧
      ∀ c ∈ turn.before, ∀ d ∈ turn.conditions, d.kind = c.kind → d.status = c.status →
        d.since =
          if d.kind = .terminal ∧ turn.plan.decision = .proceed then turn.context.now
          else c.since := by
  obtain ⟨earlier, hstart, hleft⟩ : ∃ earlier : Turn (.parameterGroup .dbInstance),
      earlier.before = [] ∧ earlier.conditions =
        [⟨.terminal, true, some "unknown parameter: bogus", none, ⟨0, 0⟩⟩,
          ⟨.synced, true, none, none, ⟨0, 0⟩⟩] := by
    refine ⟨⟨.sample, .initial (.memory .fresh),
      .sampleGroup (Table.ofList [("bogus", some "1")]) [] [], .sampleGroup Table.empty [] [],
      _, _, Prod.ext rfl rfl⟩, rfl, ?_⟩
    decide +kernel
  obtain ⟨turn, hbefore, hconditions⟩ : ∃ turn : Turn (.parameterGroup .dbInstance),
      turn.before = earlier.conditions ∧ turn.conditions =
        [⟨.synced, true, none, none, ⟨0, 0⟩⟩,
          ⟨.terminal, true, some "unknown parameter: bogus", none, ⟨60, 0⟩⟩] := by
    rw [hleft]
    refine ⟨⟨{ Context.sample with now := ⟨60, 0⟩ }, .initial (.memory .fresh),
      .sampleGroup (Table.ofList [("bogus", some "1")]) [] [],
      .sampleGroup Table.empty []
        [⟨.terminal, true, some "unknown parameter: bogus", none, ⟨0, 0⟩⟩,
          ⟨.synced, true, none, none, ⟨0, 0⟩⟩], _, _, Prod.ext rfl rfl⟩, rfl, ?_⟩
    decide +kernel
  obtain ⟨hdistinct, hsince⟩ :=
    since_along_run Conditions.distinctKinds_nil (.next (.first hstart) hbefore)
  exact ⟨earlier, turn, hstart, hbefore, hconditions, hdistinct, hsince⟩

/-- Where the plan proceeds the moment can move without a flip: an unknown parameter stops the
pass as it stopped one an hour ago, and the terminal condition that was there before is there
again with a moment of its own. -/
theorem unknown_parameter_moves_moment :
    ∃ turn : Turn (.parameterGroup .dbInstance),
      turn.desired = .sampleGroup (Table.ofList [("bogus", some "1")]) [] [] ∧
      turn.observed = .sampleGroup Table.empty []
        [⟨.terminal, true, some "unknown parameter: bogus", none, ⟨-3600, 0⟩⟩,
          ⟨.synced, true, none, none, ⟨-3600, 0⟩⟩] ∧
      Carried turn.before turn ∧ Conditions.DistinctKinds turn.before ∧
      turn.conditions =
        [⟨.synced, true, none, none, ⟨-3600, 0⟩⟩,
          ⟨.terminal, true, some "unknown parameter: bogus", none, ⟨0, 0⟩⟩] := by
  refine ⟨⟨.sample, .initial (.memory .fresh),
    .sampleGroup (Table.ofList [("bogus", some "1")]) [] [],
    .sampleGroup Table.empty []
      [⟨.terminal, true, some "unknown parameter: bogus", none, ⟨-3600, 0⟩⟩,
        ⟨.synced, true, none, none, ⟨-3600, 0⟩⟩], _, _, Prod.ext rfl rfl⟩,
    rfl, rfl, .first rfl, ?_, ?_⟩
  · decide +kernel
  · decide +kernel

end Turn
end DbSteward
