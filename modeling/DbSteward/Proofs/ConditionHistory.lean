import DbSteward.Proofs.Condition
import Mathlib.Data.List.DropRight

/-!
# The history of a condition

The conditions of a resource are set and removed one step at a time, each step at its own
reading of the clock.  What a condition is in the end is told by single steps of this history:
its words are those of the last step that set its kind, and its moment is that of the last step
that created it or flipped its status since it was last removed.  Steps that concern the other
kind have no part in it.
-/

namespace DbSteward
namespace Conditions

/-- A step in the upkeep of conditions, with the clock as it reads the time. -/
inductive Step where
  | put (now : Moment) (kind : ConditionKind) (status : Bool) (message reason : Option String)
  | putSynced (now : Moment) (status : Bool) (message : Option String)
  | putTerminal (now : Moment) (message : String)
  | clearTerminal

namespace Step

def apply (conditions : List Condition) : Step → List Condition
  | .put now kind status message reason =>
      Conditions.put now kind status message reason conditions
  | .putSynced now status message => Conditions.putSynced now status message conditions
  | .putTerminal now message => Conditions.putTerminal now message conditions
  | .clearTerminal => Conditions.clearTerminal conditions

/-- The condition that a step sets, as it is if the step creates it. -/
def condition? : Step → Option Condition
  | .put now kind status message reason => some ⟨kind, status, message, reason, now⟩
  | .putSynced now status message => some ⟨.synced, status, message, none, now⟩
  | .putTerminal now message => some ⟨.terminal, true, some message, none, now⟩
  | .clearTerminal => none

/-- The condition that a step sets, if it is of the kind. -/
def sets? (kind : ConditionKind) (step : Step) : Option Condition :=
  step.condition?.filter fun c => c.kind == kind

def removes : ConditionKind → Step → Bool
  | .terminal, .clearTerminal => true
  | _, _ => false

/-- Whether a step leaves a condition of the kind behind, if it concerns the kind at all. -/
def leaves? (kind : ConditionKind) (step : Step) : Option Bool :=
  if (step.sets? kind).isSome then some true
  else if step.removes kind then some false
  else none

end Step

/-- A step and the conditions it found. -/
structure Event where
  found : List Condition
  step : Step

/-- The reading of the clock at which an event created the condition of a kind or flipped its
status. -/
def Event.moment? (kind : ConditionKind) (event : Event) : Option Moment :=
  (event.step.sets? kind).bind fun c =>
    match find? event.found kind with
    | none => some c.since
    | some earlier => if earlier.status = c.status then none else some c.since

/-- What the conditions have become after some steps. -/
def after (start : List Condition) (steps : List Step) : List Condition :=
  steps.foldl Step.apply start

def events (start : List Condition) : List Step → List Event
  | [] => []
  | step :: rest => ⟨start, step⟩ :: events (step.apply start) rest

section History

variable (kind : ConditionKind) (start : List Condition) (steps : List Step)

/-- Whether there should be a condition of a kind: the last step that concerned the kind left one
behind, or none concerned it and there was one at the start. -/
def isPresent : Bool :=
  (steps.filterMap (Step.leaves? kind)).getLast?.getD (find? start kind).isSome

/-- What the last step that set a kind made of it, or the condition at the start. -/
def lastSet? : Option Condition :=
  (steps.filterMap (Step.sets? kind)).getLast?.or (find? start kind)

/-- The moment of the last event since the last removal of a kind that created its condition or
flipped its status, or the moment at the start. -/
def lastMoment? : Option Moment :=
  (((events start steps).rtakeWhile fun event => !event.step.removes kind).filterMap
    (Event.moment? kind)).getLast?.or ((find? start kind).map Condition.since)

end History

/-! ## One step -/

namespace Step

variable {step : Step} {conditions : List Condition} {kind : ConditionKind} {c : Condition}

/-- All steps that set a condition put it. -/
theorem apply_of_condition? (hsets : step.condition? = some c) :
    step.apply conditions =
      Conditions.put c.since c.kind c.status c.message c.reason conditions := by
  cases step <;> cases hsets <;> rfl

theorem eq_clearTerminal_of_condition? (hsets : step.condition? = none) :
    step = .clearTerminal := by
  cases step with
  | clearTerminal => rfl
  | _ => cases hsets

theorem removes_of_sets? (hsets : step.sets? kind = some c) : step.removes kind = false := by
  cases step with
  | clearTerminal => cases hsets
  | _ => cases kind <;> rfl

theorem find?_apply_of_sets? (hsets : step.sets? kind = some c) :
    find? (step.apply conditions) kind =
      some (placed c.since kind c.status c.message c.reason (find? conditions kind)) := by
  obtain ⟨hcondition, hkind⟩ := Option.filter_eq_some_iff.1 hsets
  obtain rfl : c.kind = kind := by simpa using hkind
  rw [apply_of_condition? hcondition, find?_put_self]

theorem find?_apply_of_removes (hremoves : step.removes kind = true) :
    find? (step.apply conditions) kind = none := by
  cases kind <;> cases step <;> cases hremoves
  exact find?_clearTerminal_terminal conditions

theorem leaves?_of_sets? (hsets : step.sets? kind = some c) :
    step.leaves? kind = some true := by
  simp [leaves?, hsets]

theorem leaves?_of_removes (hsets : step.sets? kind = none)
    (hremoves : step.removes kind = true) : step.leaves? kind = some false := by
  simp [leaves?, hsets, hremoves]

theorem leaves?_of_other (hsets : step.sets? kind = none)
    (hremoves : step.removes kind = false) : step.leaves? kind = none := by
  simp [leaves?, hsets, hremoves]

/-- A step that neither sets nor removes a kind leaves its condition alone. -/
theorem find?_apply_of_other (hsets : step.sets? kind = none)
    (hremoves : step.removes kind = false) :
    find? (step.apply conditions) kind = find? conditions kind := by
  cases hcondition : step.condition? with
  | none =>
      obtain rfl := eq_clearTerminal_of_condition? hcondition
      cases kind with
      | synced => exact find?_clearTerminal_synced conditions
      | terminal => cases hremoves
  | some d =>
      have hne : d.kind ≠ kind := by
        simpa [sets?, hcondition] using hsets
      rw [apply_of_condition? hcondition, find?_put_of_ne _ _ _ _ _ hne]

theorem distinctKinds_apply (step : Step) (hdistinct : DistinctKinds conditions) :
    DistinctKinds (step.apply conditions) := by
  cases step with
  | clearTerminal => exact hdistinct.clearTerminal
  | _ => exact hdistinct.put ..

end Step

/-- The moment of a condition that an event has set is its own reading if it created the condition
or flipped it, and the moment from before otherwise. -/
theorem Event.moment?_or {event : Event} {kind : ConditionKind} {c : Condition}
    (hsets : event.step.sets? kind = some c) {before : Option Moment}
    (hbefore : ∀ earlier, find? event.found kind = some earlier → before = some earlier.since) :
    (event.moment? kind).or before =
      some (placed c.since kind c.status c.message c.reason (find? event.found kind)).since := by
  rw [moment?, hsets, Option.bind_some]
  cases hfound : find? event.found kind with
  | none => rfl
  | some earlier =>
      by_cases hsame : earlier.status = c.status
      · simp [placed, Condition.revised, hsame, hbefore earlier hfound]
      · simp [placed, Condition.revised, hsame]

/-! ## One step more -/

section Concat

variable {kind : ConditionKind} {start : List Condition} {steps : List Step} {step : Step}

theorem after_concat (start : List Condition) (steps : List Step) (step : Step) :
    after start (steps ++ [step]) = step.apply (after start steps) :=
  List.foldl_concat ..

theorem events_concat (start : List Condition) (steps : List Step) (step : Step) :
    events start (steps ++ [step]) = events start steps ++ [⟨after start steps, step⟩] := by
  induction steps generalizing start with
  | nil => rfl
  | cons first rest ih => exact congrArg (_ :: ·) (ih (first.apply start))

theorem isPresent_concat_of_leaves? {left : Bool} (hleaves : step.leaves? kind = some left) :
    isPresent kind start (steps ++ [step]) = left := by
  simp [isPresent, List.filterMap_append, hleaves]

theorem isPresent_concat_of_not_leaves? (hleaves : step.leaves? kind = none) :
    isPresent kind start (steps ++ [step]) = isPresent kind start steps := by
  simp [isPresent, List.filterMap_append, hleaves]

theorem lastSet?_concat :
    lastSet? kind start (steps ++ [step]) =
      (step.sets? kind).or (lastSet? kind start steps) := by
  cases hsets : step.sets? kind <;>
    simp [lastSet?, List.filterMap_append, hsets]

theorem lastMoment?_concat (hremoves : step.removes kind = false) :
    lastMoment? kind start (steps ++ [step]) =
      (Event.moment? kind ⟨after start steps, step⟩).or (lastMoment? kind start steps) := by
  rw [lastMoment?, events_concat, List.rtakeWhile_concat_pos _ _ _ (by simp [hremoves])]
  cases hmoment : Event.moment? kind ⟨after start steps, step⟩ <;>
    simp [lastMoment?, List.filterMap_append, hmoment]

end Concat

/-! ## The whole history -/

theorem distinctKinds_after {start : List Condition} (hstart : DistinctKinds start)
    (steps : List Step) : DistinctKinds (after start steps) := by
  induction steps using List.reverseRecOn with
  | nil => exact hstart
  | append_singleton steps step ih =>
      rw [after_concat]
      exact step.distinctKinds_apply ih

theorem isSome_find?_after (kind : ConditionKind) (start : List Condition)
    (steps : List Step) :
    (find? (after start steps) kind).isSome = isPresent kind start steps := by
  induction steps using List.reverseRecOn with
  | nil => rfl
  | append_singleton steps step ih =>
      rw [after_concat]
      cases hsets : step.sets? kind with
      | some c =>
          rw [Step.find?_apply_of_sets? hsets,
            isPresent_concat_of_leaves? (Step.leaves?_of_sets? hsets), Option.isSome_some]
      | none =>
          cases hremoves : step.removes kind with
          | true =>
              rw [Step.find?_apply_of_removes hremoves,
                isPresent_concat_of_leaves? (Step.leaves?_of_removes hsets hremoves),
                Option.isSome_none]
          | false =>
              rw [Step.find?_apply_of_other hsets hremoves, ih,
                isPresent_concat_of_not_leaves? (Step.leaves?_of_other hsets hremoves)]

/-- What the history of a kind tells about its condition. -/
structure IsTold (kind : ConditionKind) (start : List Condition) (steps : List Step)
    (c : Condition) : Prop where
  words : ∃ d, lastSet? kind start steps = some d ∧
    c.status = d.status ∧ c.message = d.message ∧ c.reason = d.reason
  moment : lastMoment? kind start steps = some c.since

theorem isTold_of_find?_start {kind : ConditionKind} {start : List Condition} {c : Condition}
    (hfound : find? start kind = some c) : IsTold kind start [] c where
  words := ⟨c, hfound, rfl, rfl, rfl⟩
  moment := congrArg (Option.map Condition.since) hfound

theorem isTold_of_find? {kind : ConditionKind} {start : List Condition} {steps : List Step} :
    ∀ {c}, find? (after start steps) kind = some c → IsTold kind start steps c := by
  induction steps using List.reverseRecOn with
  | nil => exact isTold_of_find?_start
  | append_singleton steps step ih =>
      intro c hfound
      rw [after_concat] at hfound
      cases hsets : step.sets? kind with
      | some d =>
          -- The step has the last word, and the moment goes on from the condition it found.
          rw [Step.find?_apply_of_sets? hsets] at hfound
          obtain rfl := Option.some.inj hfound
          have hremoves := Step.removes_of_sets? hsets
          refine ⟨⟨d, ?_, ?_⟩, ?_⟩
          · rw [lastSet?_concat, hsets, Option.some_or]
          · cases find? (after start steps) kind <;> exact ⟨rfl, rfl, rfl⟩
          · rw [lastMoment?_concat hremoves]
            exact Event.moment?_or hsets fun earlier hearlier => (ih hearlier).moment
      | none =>
          cases hremoves : step.removes kind with
          | true =>
              rw [Step.find?_apply_of_removes hremoves] at hfound
              cases hfound
          | false =>
              -- The history of the kind is the same as before.
              rw [Step.find?_apply_of_other hsets hremoves] at hfound
              have htold := ih hfound
              have hmoment : Event.moment? kind ⟨after start steps, step⟩ = none := by
                rw [Event.moment?, hsets, Option.bind_none]
              refine ⟨?_, ?_⟩
              · rw [lastSet?_concat, hsets, Option.none_or]
                exact htold.words
              · rw [lastMoment?_concat hremoves, hmoment, Option.none_or]
                exact htold.moment

/-- From a list with at most one condition of each kind it stays so at all times, there is a
condition of a kind exactly if the history has one, and every condition has the words of the last
step that set its kind and the moment at which it was last created or flipped. -/
theorem condition_told_by_history {start : List Condition} (hstart : DistinctKinds start)
    (steps : List Step) :
    (∀ earlier, earlier <+: steps → DistinctKinds (after start earlier)) ∧
      (∀ kind, (∃ c ∈ after start steps, c.kind = kind) ↔ isPresent kind start steps) ∧
      ∀ c ∈ after start steps, IsTold c.kind start steps c := by
  have hdistinct := distinctKinds_after hstart steps
  refine ⟨fun earlier _ => distinctKinds_after hstart earlier, fun kind => ?_, fun c hc => ?_⟩
  · rw [← isSome_find?_after, Option.isSome_iff_exists]
    simp only [find?_eq_some_iff hdistinct]
  · exact isTold_of_find? ((find?_eq_some_iff hdistinct).2 ⟨hc, rfl⟩)

def sampleStart : List Condition :=
  [⟨.terminal, true, some "invalid class", none, ⟨0, 0⟩⟩, ⟨.synced, true, none, none, ⟨5, 0⟩⟩]

def sampleSteps : List Step :=
  [.putTerminal ⟨10, 0⟩ "invalid subnet", .putSynced ⟨20, 0⟩ false none, .clearTerminal,
    .putTerminal ⟨30, 0⟩ "failed", .put ⟨40, 0⟩ .terminal true (some "failed again") (some "Quota"),
    .putSynced ⟨50, 0⟩ false (some "waiting")]

/-- The terminal condition is as old as its return, whatever it was before it was removed, and
the synced one as old as its flip. -/
theorem returned_terminal_told :
    after sampleStart sampleSteps =
        [⟨.synced, false, some "waiting", none, ⟨20, 0⟩⟩,
          ⟨.terminal, true, some "failed again", some "Quota", ⟨30, 0⟩⟩] ∧
      ∀ c ∈ after sampleStart sampleSteps, IsTold c.kind sampleStart sampleSteps c := by
  have hstart : DistinctKinds sampleStart := by decide
  obtain ⟨-, -, htold⟩ := condition_told_by_history hstart sampleSteps
  exact ⟨by decide, htold⟩

end Conditions
end DbSteward
