import DbSteward.Proofs.Condition
import DbSteward.Proofs.Dialogue
import DbSteward.Proofs.Gate

/-!
# How a pass ends

A pass comes to one of a few ends: the gate was closed, there was nothing to do, the update
went through, met an obstacle, or failed otherwise.  Whatever it gives back, the conditions
tell its decision, and they come from the conditions that it found by at most one revision of
each kind.
-/

namespace DbSteward

namespace Kind

/-- An update of the kind says whether anything but the tags changed.  Other updates call
the resource converged once they went through. -/
def looksBeyondTags : Kind → Bool
  | .parameterGroup _ => false
  | .snapshot _ => false
  | _ => true

end Kind

namespace Pass

variable {α β : Type} {kind : Kind}

/-! ## What a pass gives -/

/-- Whatever value a run of the pass gives is as promised. -/
def Gives (promised : α → Prop) (pass : Pass α) : Prop :=
  ∀ world a after, runIn world pass = (.ok a, after) → promised a

section Gives

variable {promised : α → Prop}

theorem gives_pure {a : α} (ha : promised a) : Gives promised (pure a) := by
  intro world b after hrun
  rw [← Except.ok.inj (congrArg Prod.fst hrun)]
  exact ha

theorem gives_bind {pass : Pass β} {next : β → Pass α} (hnext : ∀ b, Gives promised (next b)) :
    Gives promised (pass >>= next) := by
  intro world a after hrun
  obtain ⟨b, middle, -, hrest⟩ := runIn_bind_eq_ok hrun
  exact hnext b middle a after hrest

/-- What every modify call gives is settled before it is sent. -/
theorem gives_send {ρ : Type} {a : α} (ha : promised a) (request : Except Failure ρ)
    (toCall : ρ → Call) :
    Gives promised (liftExcept request >>= fun r => call (toCall r) >>= fun _ => pure a) :=
  gives_bind fun _ => gives_bind fun _ => gives_pure ha

end Gives

/-! ## How an update ends -/

/-- What an update gives back has the status of the observed document, with a condition that
says whether anything is left to be seen to. -/
inductive Leaves (context : Context) (observed : Document kind) (changes : Changes) :
    Outcome kind → Prop where
  | converged {document : Document kind} (hstatus : document.status = observed.status)
      (hnone : kind.looksBeyondTags = true → changes.touchesBeyond [kind.tagsPath] = false) :
      Leaves context observed changes (.converged context.now document)
  | modified {document : Document kind} (hstatus : document.status = observed.status)
      (hsome : changes.touchesBeyond [kind.tagsPath] = true) :
      Leaves context observed changes (.modified context.now document)
  | postponed {document : Document kind} (hstatus : document.status = observed.status)
      (after : Duration) (reason : String) :
      Leaves context observed changes (.postponed context.now (.retryAfter after reason) document)

theorem withStatusOf_status (document other : Document kind) :
    (document.withStatusOf other).status = other.status :=
  rfl

theorem withPasswordSent_status (path : String) (secret : Option SecretRef) (changes : Changes)
    (document : Document kind) :
    (document.withPasswordSent path secret changes).status = document.status := by
  unfold Document.withPasswordSent
  split <;> rfl

theorem withPasswordSent_spec (path : String) (secret : Option SecretRef) (changes : Changes)
    (doc : Document kind) : (doc.withPasswordSent path secret changes).spec = doc.spec := by
  unfold Document.withPasswordSent
  split <;> rfl

theorem withPasswordSent_metadata {path : String} {secret : Option SecretRef}
    {changes : Changes} {doc other : Document kind} (hmetadata : doc.metadata = other.metadata) :
    (doc.withPasswordSent path secret changes).metadata =
      (other.withPasswordSent path secret changes).metadata := by
  unfold Document.withPasswordSent
  split
  · simp only [hmetadata]
  · exact hmetadata

theorem gives_finishInstance (context : Context) (desired observed : Document .dbInstance)
    (changes : Changes) :
    Gives (Leaves context observed changes) (finishInstance context desired observed changes) := by
  have hbeyond := instanceSchema_lawful.touchesBeyond_iff
    (by decide : InstanceField.tags ≠ .replicated) changes
  unfold finishInstance
  split
  · rename_i hboth
    exact gives_send (.modified (withPasswordSent_status _ _ _ _) (hbeyond.2 (.inl hboth))) _ _
  · rename_i hboth
    split
    · rename_i htouches
      exact gives_pure (.modified rfl (hbeyond.2 (.inr htouches)))
    · rename_i htouches
      refine gives_pure (.converged rfl fun _ => ?_)
      rw [← Bool.not_eq_true]
      exact fun h => (hbeyond.1 h).elim hboth htouches

theorem gives_afterTags (context : Context) (arn : String) (desired observed : Document kind)
    (changes : Changes) :
    Gives (Leaves context observed changes)
      (afterTags kind context arn desired observed changes) := by
  cases kind with
  | dbCluster =>
      rw [afterTags]
      split
      · rename_i hbeyond
        exact gives_send (.modified (withPasswordSent_status _ _ _ _) hbeyond) _ _
      · rename_i hbeyond
        exact gives_pure (.converged rfl fun _ => Bool.not_eq_true _ ▸ hbeyond)
  | dbInstance =>
      refine gives_bind fun decision => ?_
      cases decision with
      | retryAfter after reason =>
          exact gives_pure (.postponed (withStatusOf_status _ _) after reason)
      | proceed => exact gives_finishInstance context desired observed changes
      | failTerminal reason => exact gives_finishInstance context desired observed changes
  | parameterGroup scope =>
      exact gives_bind fun _ => gives_pure (.converged rfl fun h => absurd h Bool.false_ne_true)
  | subnetGroup =>
      rw [afterTags]
      split
      · rename_i hbeyond
        exact gives_send (.modified rfl hbeyond) _ _
      · rename_i hbeyond
        exact gives_pure (.converged rfl fun _ => Bool.not_eq_true _ ▸ hbeyond)
  | snapshot scope => exact gives_pure (.converged rfl fun h => absurd h Bool.false_ne_true)

theorem gives_update (context : Context) (desired observed : Document kind)
    (changes : Changes) :
    Gives (Leaves context observed changes) (update kind context desired observed changes) := by
  rw [update_eq_tags_first]
  exact gives_bind fun arn => gives_bind fun _ =>
    gives_afterTags context arn desired observed changes

/-! ## How a pass over a resource ends -/

/-- The update that a pass tries if its plan lets it. -/
def plannedUpdate (context : Context) (desired observed : Document kind) : Pass (Outcome kind) :=
  update kind context (desired.normal observed) (observed.mapConditions Conditions.clearTerminal)
    (Plan.of context.settings desired observed).changes

theorem settle_of_update {context : Context} {desired observed : Document kind}
    (hdecision : (Plan.of context.settings desired observed).decision = .proceed)
    (hchanges : (Plan.of context.settings desired observed).changes.isEmpty = false) :
    settle context desired observed =
      orAbandon context.now (givenBack desired observed) (plannedUpdate context desired observed) :=
  settle_of_changes hdecision hchanges

/-- The ends that a pass can come to, each with what it gives and the world it leaves. -/
inductive Ended (context : Context) (world : World) (desired observed : Document kind) :
    Except Failure (Outcome kind) → World → Prop where
  | refused {reason : String}
      (hdecision : (Plan.of context.settings desired observed).decision = .failTerminal reason) :
      Ended context world desired observed
        (.ok (.abandoned context.now reason ((desired.normal observed).withStatusOf observed)))
        world
  | deferred {delay : Duration} {reason : String}
      (hdecision :
        (Plan.of context.settings desired observed).decision = .retryAfter delay reason) :
      Ended context world desired observed
        (.ok (.postponed context.now (.retryAfter delay reason)
          ((desired.normal observed).withStatusOf observed))) world
  | idle (hdecision : (Plan.of context.settings desired observed).decision = .proceed)
      (hnone : (Plan.of context.settings desired observed).changes.isEmpty = true) :
      Ended context world desired observed
        (.ok (.converged context.now (givenBack desired observed))) world
  | updated {outcome : Outcome kind} {after : World}
      (hdecision : (Plan.of context.settings desired observed).decision = .proceed)
      (hchanges : (Plan.of context.settings desired observed).changes.isEmpty = false)
      (hrun : runIn world (plannedUpdate context desired observed) = (.ok outcome, after)) :
      Ended context world desired observed (.ok outcome) after
  | obstructed {o : Obstacle} {after : World}
      (hdecision : (Plan.of context.settings desired observed).decision = .proceed)
      (hchanges : (Plan.of context.settings desired observed).changes.isEmpty = false)
      (hrun : runIn world (plannedUpdate context desired observed) =
        (.error (.obstacle o), after)) :
      Ended context world desired observed
        (.ok (.abandoned context.now o.message (givenBack desired observed))) after
  | failed {failure : Failure} {after : World}
      (hdecision : (Plan.of context.settings desired observed).decision = .proceed)
      (hchanges : (Plan.of context.settings desired observed).changes.isEmpty = false)
      (hobstacle : failure.isObstacle = false)
      (hrun : runIn world (plannedUpdate context desired observed) = (.error failure, after)) :
      Ended context world desired observed (.error failure) after

theorem ended_of_update {context : Context} {world : World} {desired observed : Document kind}
    (hdecision : (Plan.of context.settings desired observed).decision = .proceed)
    (hchanges : (Plan.of context.settings desired observed).changes.isEmpty = false)
    {result : Except Failure (Outcome kind)} {after : World}
    (hrun : runIn world (plannedUpdate context desired observed) = (result, after)) :
    Ended context world desired observed
      (abandoning context.now (givenBack desired observed) result) after := by
  cases result with
  | ok outcome => exact .updated hdecision hchanges hrun
  | error failure =>
      cases failure with
      | obstacle o => exact .obstructed hdecision hchanges hrun
      | _ => exact .failed hdecision hchanges rfl hrun

theorem settle_ended {context : Context} {world after : World}
    {desired observed : Document kind} {result : Except Failure (Outcome kind)}
    (hrun : runIn world (settle context desired observed) = (result, after)) :
    Ended context world desired observed result after := by
  cases hdecision : (Plan.of context.settings desired observed).decision with
  | failTerminal reason =>
      rw [settle, follow, hdecision] at hrun
      obtain ⟨rfl, rfl⟩ := Prod.mk.inj hrun
      exact .refused hdecision
  | retryAfter delay reason =>
      rw [settle, follow, hdecision] at hrun
      obtain ⟨rfl, rfl⟩ := Prod.mk.inj hrun
      exact .deferred hdecision
  | proceed =>
      cases hchanges : (Plan.of context.settings desired observed).changes.isEmpty with
      | true =>
          rw [settle_of_proceed context hdecision, proceed, if_pos hchanges] at hrun
          obtain ⟨rfl, rfl⟩ := Prod.mk.inj hrun
          exact .idle hdecision hchanges
      | false =>
          rw [settle_of_update hdecision hchanges, runIn_orAbandon] at hrun
          obtain ⟨rfl, rfl⟩ := Prod.mk.inj hrun
          exact ended_of_update hdecision hchanges rfl

/-! ## The conditions that a pass leaves -/

/-- The conditions that a pass goes on from.  One that may proceed takes back that an earlier
pass gave up. -/
def conditionsKept (plan : Plan) (conditions : List Condition) : List Condition :=
  match plan.decision with
  | .proceed => Conditions.clearTerminal conditions
  | _ => conditions

theorem conditionsKept_of_proceed {plan : Plan} (hdecision : plan.decision = .proceed)
    (conditions : List Condition) :
    conditionsKept plan conditions = Conditions.clearTerminal conditions := by
  rw [conditionsKept, hdecision]

theorem conditionsKept_of_stop {plan : Plan} (hdecision : plan.decision ≠ .proceed)
    (conditions : List Condition) : conditionsKept plan conditions = conditions := by
  unfold conditionsKept
  split
  · rename_i h
    exact absurd h hdecision
  · rfl

/-- The conditions that tell a decision, from those that were there before. -/
inductive Tells (now : Moment) (kept : List Condition) : Decision → List Condition → Prop where
  | proceed (synced : Bool) :
      Tells now kept .proceed (Conditions.putSynced now synced none kept)
  | retryAfter (after : Duration) (reason : String) :
      Tells now kept (.retryAfter after reason) (Conditions.putSynced now false (some reason) kept)
  | failTerminal (reason : String) :
      Tells now kept (.failTerminal reason)
        (Conditions.putSynced now true none (Conditions.putTerminal now reason kept))

theorem Leaves.tells {context : Context} {observed : Document kind} {changes : Changes}
    {outcome : Outcome kind} (hleaves : Leaves context observed changes outcome) :
    Tells context.now observed.status.conditions outcome.decision
      outcome.document.status.conditions := by
  cases hleaves with
  | converged hstatus hnone =>
      rw [← hstatus]
      exact .proceed true
  | modified hstatus hsome =>
      rw [← hstatus]
      exact .proceed false
  | postponed hstatus after reason =>
      rw [← hstatus]
      exact .retryAfter after reason

theorem settle_tells {context : Context} {world after : World}
    {desired observed : Document kind} {outcome : Outcome kind}
    (hrun : runIn world (settle context desired observed) = (.ok outcome, after)) :
    Tells context.now
      (conditionsKept (Plan.of context.settings desired observed) observed.status.conditions)
      outcome.decision outcome.document.status.conditions := by
  cases settle_ended hrun with
  | refused hdecision =>
      rw [conditionsKept_of_stop (by simp [hdecision])]
      exact .failTerminal _
  | deferred hdecision =>
      rw [conditionsKept_of_stop (by simp [hdecision])]
      exact .retryAfter _ _
  | idle hdecision hnone =>
      rw [conditionsKept_of_proceed hdecision]
      exact .proceed true
  | updated hdecision hchanges hupdate =>
      rw [conditionsKept_of_proceed hdecision]
      exact (gives_update _ _ _ _ _ _ _ hupdate).tells
  | obstructed hdecision hchanges hupdate =>
      rw [conditionsKept_of_proceed hdecision]
      exact .failTerminal _

section Tells

variable {now : Moment} {kept left : List Condition} {decision : Decision}

theorem Tells.find?_synced (htells : Tells now kept decision left) :
    ∃ status message, Conditions.find? left .synced =
      some (Conditions.placed now .synced status message none
        (Conditions.find? kept .synced)) := by
  cases htells with
  | proceed synced => exact ⟨_, _, Conditions.find?_putSynced_synced ..⟩
  | retryAfter after reason => exact ⟨_, _, Conditions.find?_putSynced_synced ..⟩
  | failTerminal reason =>
      rw [Conditions.find?_putSynced_synced, Conditions.find?_putTerminal_synced]
      exact ⟨_, _, rfl⟩

theorem Tells.find?_terminal (htells : Tells now kept decision left) :
    ((∀ reason, decision ≠ .failTerminal reason) ∧
        Conditions.find? left .terminal = Conditions.find? kept .terminal) ∨
      ∃ reason, decision = .failTerminal reason ∧ Conditions.find? left .terminal =
        some (Conditions.placed now .terminal true (some reason) none
          (Conditions.find? kept .terminal)) := by
  cases htells with
  | proceed synced =>
      exact .inl ⟨fun _ => Decision.noConfusion, Conditions.find?_putSynced_terminal ..⟩
  | retryAfter after reason =>
      exact .inl ⟨fun _ => Decision.noConfusion, Conditions.find?_putSynced_terminal ..⟩
  | failTerminal reason =>
      rw [Conditions.find?_putSynced_terminal]
      exact .inr ⟨reason, rfl, Conditions.find?_putTerminal_terminal ..⟩

/-- A pass that gave up says so and why. -/
theorem Tells.terminal_of_failTerminal {reason : String}
    (htells : Tells now kept (.failTerminal reason) left) :
    ∃ c, Conditions.find? left .terminal = some c ∧ c.status = true ∧
      c.message = some reason := by
  rcases htells.find?_terminal with ⟨hother, -⟩ | ⟨other, hreason, hplaced⟩
  · exact absurd rfl (hother reason)
  · obtain rfl := Decision.failTerminal.inj hreason
    refine ⟨_, hplaced, ?_, ?_⟩
    · cases Conditions.find? kept .terminal <;> rfl
    · cases Conditions.find? kept .terminal <;> rfl

theorem Tells.distinctKinds (htells : Tells now kept decision left)
    (hkept : Conditions.DistinctKinds kept) : Conditions.DistinctKinds left := by
  cases htells with
  | proceed synced => exact hkept.put ..
  | retryAfter after reason => exact hkept.put ..
  | failTerminal reason => exact (hkept.put ..).put ..

end Tells

theorem find?_conditionsKept_synced (plan : Plan) (conditions : List Condition) :
    Conditions.find? (conditionsKept plan conditions) .synced =
      Conditions.find? conditions .synced := by
  unfold conditionsKept
  split
  · exact Conditions.find?_clearTerminal_synced conditions
  · rfl

theorem distinctKinds_conditionsKept (plan : Plan) {conditions : List Condition}
    (hdistinct : Conditions.DistinctKinds conditions) :
    Conditions.DistinctKinds (conditionsKept plan conditions) := by
  unfold conditionsKept
  split
  · exact hdistinct.clearTerminal
  · exact hdistinct

end Pass

/-- A parameter group with the given overrides, as an operator or the service has it. -/
def Document.sampleGroup (overrides : Overrides) (tags : List Tag)
    (conditions : List Condition) : Document (.parameterGroup .dbInstance) where
  metadata := .blank
  spec
    | .name => some "main"
    | .family => some "mysql8.0"
    | .overrides => some overrides
    | .tags => tags
    | f => parameterGroupSchema.blank f
  status := ⟨some "arn:main", none, conditions, ()⟩

end DbSteward
