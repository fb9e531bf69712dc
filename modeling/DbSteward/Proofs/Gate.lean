import DbSteward.Proofs.Comparison
import DbSteward.Proofs.Trace
import DbSteward.Proofs.Update

/-!
# The gate before an update

A pass looks at the status of the live resource before it calls the service.  This file
says exactly which passes get as far as a call, and what all others give back without one.
-/

namespace DbSteward

namespace Kind

/-- The status is one from which a resource of the kind does not recover. -/
def IsTerminal (kind : Kind) (status : Option String) : Prop :=
  ∃ vocabulary text, kind.vocabulary? = some vocabulary ∧ status = some text ∧
    text ∈ vocabulary.terminal

/-- An instance whose storage is used up is to get more. -/
def AwaitsStorage (kind : Kind) (status : Option String) (changes : Changes) : Prop :=
  kind = .dbInstance ∧ "Spec.AllocatedStorage" ∈ changes.paths ∧
    ∃ text, status = some text ∧ text ∉ Instance.vocabulary.terminal ∧
      "storage-full".toList <:+: text.toList

/-- The status of a resource lets changes through. -/
def LetsThrough (kind : Kind) (status : Option String) (changes : Changes) : Prop :=
  kind.vocabulary? = none ∨ status = some "available" ∨ kind.AwaitsStorage status changes

theorem available_not_terminal {kind : Kind} {vocabulary : Vocabulary}
    (hvocabulary : kind.vocabulary? = some vocabulary) :
    Vocabulary.availableStatus ∉ vocabulary.terminal := by
  cases kind with
  | dbCluster =>
      obtain rfl := Option.some.inj hvocabulary
      decide
  | dbInstance =>
      obtain rfl := Option.some.inj hvocabulary
      decide
  | parameterGroup scope => simp [vocabulary?] at hvocabulary
  | subnetGroup => simp [vocabulary?] at hvocabulary
  | snapshot scope =>
      cases scope <;>
      · obtain rfl := Option.some.inj hvocabulary
        decide

theorem phase_eq_terminal_iff (kind : Kind) (status : Option String) :
    kind.phase status = .terminal ↔ kind.IsTerminal status := by
  unfold phase IsTerminal
  cases kind.vocabulary? with
  | none => simp
  | some vocabulary =>
      cases status with
      | none => simp [Vocabulary.phase]
      | some text =>
          simp only [Vocabulary.phase, List.contains_eq_mem, decide_eq_true_eq]
          by_cases hterminal : text ∈ vocabulary.terminal
          · simp [hterminal]
          · simp only [hterminal, if_false]
            split_ifs <;> simp [hterminal]

theorem phase_eq_available_iff (kind : Kind) (status : Option String) :
    kind.phase status = .available ↔
      kind.vocabulary? = none ∨ status = some Vocabulary.availableStatus := by
  unfold phase
  cases hvocabulary : kind.vocabulary? with
  | none => simp
  | some vocabulary =>
      have hnot := available_not_terminal hvocabulary
      cases status with
      | none => simp [Vocabulary.phase]
      | some text =>
          by_cases htext : text = Vocabulary.availableStatus
          · subst htext
            rw [Vocabulary.availableStatus] at hnot
            simp [Vocabulary.phase, hnot, Vocabulary.availableStatus, Vocabulary.deletingStatus,
              Vocabulary.creatingStatus]
          · simp only [Vocabulary.phase]
            split_ifs <;> simp_all

end Kind

namespace Decision

theorem ofPhase_cases (backoff : Duration) (phase : Phase) (noun : String)
    (status : Option String) :
    (phase = .available ∧ ofPhase backoff phase noun status = .proceed) ∨
      (phase = .terminal ∧ ∃ reason, ofPhase backoff phase noun status = .failTerminal reason) ∨
      (phase ≠ .available ∧ phase ≠ .terminal ∧
        ∃ reason, ofPhase backoff phase noun status = .retryAfter backoff reason) := by
  cases phase <;> simp [ofPhase]

end Decision

namespace Plan

variable {kind : Kind}

theorem admits_iff (desired observed : Document kind) (text : String) :
    kind.admits text (desired.changes observed) = true ↔
      kind = .dbInstance ∧ "Spec.AllocatedStorage" ∈ (desired.changes observed).paths ∧
        "storage-full".toList <:+: text.toList := by
  cases kind with
  | dbInstance =>
      have hpath : instanceSchema.path .storage = "Spec.AllocatedStorage" := by decide
      have hstorage := Document.path_mem_paths_iff desired observed (f := InstanceField.storage)
        (by decide)
      rw [Kind.admits, Bool.and_eq_true, Text.mentions_iff,
        Document.touches_path_iff desired observed InstanceField.storage, ← hstorage, hpath]
      simp [Instance.storageFullStatus, and_comm]
  | _ => simp [Kind.admits]

theorem decision_eq (settings : Settings) (desired observed : Document kind) :
    (Plan.of settings desired observed).decision =
      decide kind settings.backoff observed.status.live
        (Plan.of settings desired observed).changes :=
  rfl

theorem decision_of_terminal (settings : Settings) {desired observed : Document kind}
    (hterminal : kind.IsTerminal observed.status.live) :
    ∃ reason, (Plan.of settings desired observed).decision = .failTerminal reason := by
  have hphase := (kind.phase_eq_terminal_iff _).2 hterminal
  simp [decision_eq, decide, hphase, Decision.ofPhase]

theorem decide_of_admitted {backoff after : Duration} {text reason : String} {changes : Changes}
    (hphase : Decision.ofPhase backoff (kind.phase (some text)) kind.noun (some text) =
      .retryAfter after reason)
    (hadmits : kind.admits text changes = true) :
    decide kind backoff (some text) changes = .proceed := by
  unfold decide
  rw [hphase]
  simp [hadmits]

theorem decide_of_refused {backoff after : Duration} {status : Option String}
    {reason : String} {changes : Changes}
    (hphase : Decision.ofPhase backoff (kind.phase status) kind.noun status =
      .retryAfter after reason)
    (hrefused : ∀ text, status = some text → kind.admits text changes = false) :
    decide kind backoff status changes = .retryAfter after reason := by
  unfold decide
  rw [hphase]
  cases status with
  | none => rfl
  | some text => simp [hrefused text rfl]

theorem decision_of_available (settings : Settings) {desired observed : Document kind}
    (hphase : kind.phase observed.status.live = .available) :
    (Plan.of settings desired observed).decision = .proceed := by
  simp [decision_eq, decide, hphase, Decision.ofPhase]

theorem decision_of_awaitsStorage (settings : Settings) {desired observed : Document kind}
    (hawaits : kind.AwaitsStorage observed.status.live
      (Plan.of settings desired observed).changes) :
    (Plan.of settings desired observed).decision = .proceed := by
  obtain ⟨hkind, hpath, text, hstatus, hterminal, hfull⟩ := hawaits
  have hadmits : kind.admits text (Plan.of settings desired observed).changes = true :=
    (admits_iff (desired.normal observed) observed text).2 ⟨hkind, hpath, hfull⟩
  rcases Decision.ofPhase_cases settings.backoff (kind.phase observed.status.live) kind.noun
      observed.status.live with ⟨h, -⟩ | ⟨h, -⟩ | ⟨-, -, reason, h⟩
  · exact decision_of_available settings h
  · exfalso
    obtain ⟨vocabulary, other, hvocabulary, hother, hmem⟩ := (kind.phase_eq_terminal_iff _).1 h
    subst hkind
    obtain rfl : Instance.vocabulary = vocabulary := Option.some.inj hvocabulary
    obtain rfl : text = other := Option.some.inj (hstatus.symm.trans hother)
    exact hterminal hmem
  · rw [decision_eq]
    rw [hstatus] at h ⊢
    exact decide_of_admitted h hadmits

theorem decision_of_letsThrough (settings : Settings) {desired observed : Document kind}
    (hlets : kind.LetsThrough observed.status.live (Plan.of settings desired observed).changes) :
    (Plan.of settings desired observed).decision = .proceed := by
  rcases hlets with hkind | havailable | hawaits
  · exact decision_of_available settings ((kind.phase_eq_available_iff _).2 (.inl hkind))
  · exact decision_of_available settings ((kind.phase_eq_available_iff _).2 (.inr havailable))
  · exact decision_of_awaitsStorage settings hawaits

theorem decision_of_blocked (settings : Settings) {desired observed : Document kind}
    (hterminal : ¬ kind.IsTerminal observed.status.live)
    (hblocked :
      ¬ kind.LetsThrough observed.status.live (Plan.of settings desired observed).changes) :
    ∃ reason,
      (Plan.of settings desired observed).decision = .retryAfter settings.backoff reason := by
  rcases Decision.ofPhase_cases settings.backoff (kind.phase observed.status.live) kind.noun
      observed.status.live with ⟨h, -⟩ | ⟨h, -⟩ | ⟨-, -, reason, h⟩
  · exfalso
    rcases (kind.phase_eq_available_iff _).1 h with hkind | havailable
    · exact hblocked (.inl hkind)
    · exact hblocked (.inr (.inl havailable))
  · exact absurd ((kind.phase_eq_terminal_iff _).1 h) hterminal
  · refine ⟨reason, decide_of_refused h fun text hstatus => ?_⟩
    rw [Bool.eq_false_iff]
    intro hadmits
    obtain ⟨hkind, hpath, hfull⟩ :=
      (admits_iff (desired.normal observed) observed text).1 hadmits
    refine hblocked (.inr (.inr ⟨hkind, hpath, text, hstatus, ?_, hfull⟩))
    intro hmem
    subst hkind
    exact hterminal ⟨Instance.vocabulary, text, rfl, hstatus, hmem⟩

end Plan

namespace Pass

variable {kind : Kind}

theorem runIn_update_of_no_arn (context : Context) (world : World)
    (desired observed : Document kind) (changes : Changes) (harn : observed.status.arn = none) :
    ∃ message, runIn world (update kind context desired observed changes) =
      (.error (.missingObservation message), world) := by
  have hname : arnOf observed =
      .error (.missingObservation
        ("resource '" ++ observed.metadata.name ++ "' has no ARN yet")) := by
    simp [arnOf, harn]
  exact ⟨_, by rw [update_eq_tags_first, runIn_bind, runIn_liftExcept, hname]⟩

theorem runIn_proceed_of_no_arn (context : Context) (world : World)
    (desired observed : Document kind) {changes : Changes} (hchanges : changes.isEmpty = false)
    (harn : observed.status.arn = none) :
    ∃ message, runIn world (proceed context desired observed changes) =
      (.error (.missingObservation message), world) := by
  obtain ⟨message, hupdate⟩ := runIn_update_of_no_arn context world desired
    (observed.mapConditions Conditions.clearTerminal) changes harn
  refine ⟨message, ?_⟩
  rw [proceed, hchanges, if_neg (by simp), orAbandon, runIn_tryCatch, hupdate]
  rfl

theorem settle_of_failTerminal (context : Context) (world : World)
    {desired observed : Document kind} {reason : String}
    (hdecision :
      (Plan.of context.settings desired observed).decision = .failTerminal reason) :
    ∃ document, runIn world (settle context desired observed) =
      (.ok ⟨document, .failTerminal reason⟩, world) := by
  rw [settle, follow, hdecision]
  exact ⟨_, rfl⟩

theorem settle_of_retryAfter (context : Context) (world : World)
    {desired observed : Document kind} {after : Duration} {reason : String}
    (hdecision :
      (Plan.of context.settings desired observed).decision = .retryAfter after reason) :
    ∃ document, runIn world (settle context desired observed) =
      (.ok ⟨document, .retryAfter after reason⟩, world) := by
  rw [settle, follow, hdecision]
  exact ⟨_, rfl⟩

theorem settle_of_proceed (context : Context) {desired observed : Document kind}
    (hdecision : (Plan.of context.settings desired observed).decision = .proceed) :
    settle context desired observed =
      proceed context (desired.normal observed) observed
        (Plan.of context.settings desired observed).changes := by
  rw [settle, follow, hdecision]

/-- A closed gate stops the pass where it stands. -/
theorem settle_of_closed (context : Context) (world : World) {desired observed : Document kind}
    (hclosed : ¬ kind.LetsThrough observed.status.live
      (Plan.of context.settings desired observed).changes) :
    ∃ outcome, runIn world (settle context desired observed) = (.ok outcome, world) := by
  by_cases hterminal : kind.IsTerminal observed.status.live
  · obtain ⟨reason, hdecision⟩ := Plan.decision_of_terminal context.settings hterminal
    obtain ⟨document, hrun⟩ := settle_of_failTerminal context world hdecision
    exact ⟨_, hrun⟩
  · obtain ⟨reason, hdecision⟩ := Plan.decision_of_blocked context.settings hterminal hclosed
    obtain ⟨document, hrun⟩ := settle_of_retryAfter context world hdecision
    exact ⟨_, hrun⟩

theorem letsThrough_of_mem_calls {context : Context} {world : World}
    {desired observed : Document kind} {c : Call}
    (hmem : c ∈ calls world (settle context desired observed)) :
    kind.LetsThrough observed.status.live
      (Plan.of context.settings desired observed).changes := by
  by_contra hclosed
  obtain ⟨outcome, hrun⟩ := settle_of_closed context world hclosed
  rw [calls_eq_nil_of_runIn hrun] at hmem
  simp at hmem

/-- A pass makes a call, or changes anything else, only through an open gate.  A closed gate
fixes what the pass gives back and leaves the world as it was. -/
theorem settle_calls_only_through_gate (context : Context) (world : World)
    (desired observed : Document kind) :
    (calls world (settle context desired observed) ≠ [] ∨
        (runIn world (settle context desired observed)).2 ≠ world →
      observed.status.arn ≠ none ∧
        (Plan.of context.settings desired observed).changes.isEmpty = false ∧
        kind.LetsThrough observed.status.live
          (Plan.of context.settings desired observed).changes) ∧
    (kind.IsTerminal observed.status.live →
      ∃ document reason, runIn world (settle context desired observed) =
        (.ok ⟨document, .failTerminal reason⟩, world)) ∧
    (¬ kind.IsTerminal observed.status.live →
      ¬ kind.LetsThrough observed.status.live
        (Plan.of context.settings desired observed).changes →
      ∃ document reason, runIn world (settle context desired observed) =
        (.ok ⟨document, .retryAfter context.settings.backoff reason⟩, world)) ∧
    (kind.LetsThrough observed.status.live
        (Plan.of context.settings desired observed).changes →
      (Plan.of context.settings desired observed).changes.isEmpty = true →
      ∃ document, runIn world (settle context desired observed) =
        (.ok ⟨document, .proceed⟩, world)) ∧
    (kind.LetsThrough observed.status.live
        (Plan.of context.settings desired observed).changes →
      (Plan.of context.settings desired observed).changes.isEmpty = false →
      observed.status.arn = none →
      ∃ message, runIn world (settle context desired observed) =
        (.error (.missingObservation message), world)) := by
  have hterminal (h : kind.IsTerminal observed.status.live) :
      ∃ document reason, runIn world (settle context desired observed) =
        (.ok ⟨document, .failTerminal reason⟩, world) := by
    obtain ⟨reason, hdecision⟩ := Plan.decision_of_terminal context.settings h
    obtain ⟨document, hrun⟩ := settle_of_failTerminal context world hdecision
    exact ⟨document, reason, hrun⟩
  have hblocked (h : ¬ kind.IsTerminal observed.status.live)
      (hlets : ¬ kind.LetsThrough observed.status.live
        (Plan.of context.settings desired observed).changes) :
      ∃ document reason, runIn world (settle context desired observed) =
        (.ok ⟨document, .retryAfter context.settings.backoff reason⟩, world) := by
    obtain ⟨reason, hdecision⟩ := Plan.decision_of_blocked context.settings h hlets
    obtain ⟨document, hrun⟩ := settle_of_retryAfter context world hdecision
    exact ⟨document, reason, hrun⟩
  have hnothing (hlets : kind.LetsThrough observed.status.live
        (Plan.of context.settings desired observed).changes)
      (hempty : (Plan.of context.settings desired observed).changes.isEmpty = true) :
      ∃ document, runIn world (settle context desired observed) =
        (.ok ⟨document, .proceed⟩, world) := by
    rw [settle_of_proceed context (Plan.decision_of_letsThrough context.settings hlets),
      proceed, if_pos hempty]
    exact ⟨_, rfl⟩
  have hnameless (hlets : kind.LetsThrough observed.status.live
        (Plan.of context.settings desired observed).changes)
      (hchanges : (Plan.of context.settings desired observed).changes.isEmpty = false)
      (harn : observed.status.arn = none) :
      ∃ message, runIn world (settle context desired observed) =
        (.error (.missingObservation message), world) := by
    rw [settle_of_proceed context (Plan.decision_of_letsThrough context.settings hlets)]
    exact runIn_proceed_of_no_arn context world _ observed hchanges harn
  refine ⟨fun hactive => ?_, hterminal, hblocked, hnothing, hnameless⟩
  have hnot {outcome : Except Failure (Outcome kind)}
      (hrun : runIn world (settle context desired observed) = (outcome, world)) : False := by
    rcases hactive with hcalls | hchanged
    · exact hcalls (calls_eq_nil_of_runIn hrun)
    · exact hchanged (by rw [hrun])
  have hlets : kind.LetsThrough observed.status.live
      (Plan.of context.settings desired observed).changes := by
    by_contra hclosed
    obtain ⟨outcome, hrun⟩ := settle_of_closed context world hclosed
    exact hnot hrun
  have hchanges : (Plan.of context.settings desired observed).changes.isEmpty = false := by
    rw [Bool.eq_false_iff]
    intro hempty
    obtain ⟨document, hrun⟩ := hnothing hlets hempty
    exact hnot hrun
  refine ⟨fun harn => ?_, hchanges, hlets⟩
  obtain ⟨message, hrun⟩ := hnameless hlets hchanges harn
  exact hnot hrun

end Pass
end DbSteward
