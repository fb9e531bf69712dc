import DbSteward.Proofs.Reading
import DbSteward.Proofs.Update

/-!
# Passes as dialogues

A pass knows the service only by its answers: it asks a call, goes on with the answer, and
in between looks at nothing but the parameter traits that are remembered.  Laid open, it is a
tree that branches on the answer to every call.  What two runs of one pass have in common is
proved by induction on this tree, whatever the kind of the resource and whatever the service.
-/

namespace DbSteward

/-- The service refuses the call because the replication is already as it should be. -/
def Call.excuses : Call → ApiError → Bool
  | .startReplication _ _, e => e.mentions "already replicating"
  | .stopReplication _ _, e => e.mentions "not replicating"
  | _, _ => false

inductive Dialogue (α : Type) where
  | done (outcome : Except Failure α) (remembered : Remembered)
  /-- Asks a call, with `remembered` left behind if nobody answers. -/
  | ask (remembered : Remembered) (c : Call) (next : Except ApiError c.Answer → Dialogue α)

namespace Dialogue

variable {α β : Type}

def runIn (world : World) : Dialogue α → Except Failure α × World
  | .done outcome remembered => (outcome, { world with remembered := remembered })
  | .ask remembered c next =>
      if world.cancelled then (.error .cancelled, { world with remembered := remembered })
      else
        (next (world.service.perform c).1).runIn
          { Pass.afterCall world c (world.service.perform c).1 (world.service.perform c).2 with
            remembered := remembered }

theorem runIn_ask_of_cancelled {world : World} (hcancelled : world.cancelled = true)
    (remembered : Remembered) (c : Call) (next : Except ApiError c.Answer → Dialogue α) :
    runIn world (.ask remembered c next) =
      (.error .cancelled, { world with remembered := remembered }) := by
  rw [runIn, if_pos hcancelled]

theorem runIn_ask_of_active {world : World} (hactive : world.cancelled = false)
    (remembered : Remembered) (c : Call) (next : Except ApiError c.Answer → Dialogue α) :
    runIn world (.ask remembered c next) =
      (next (world.service.perform c).1).runIn
        { Pass.afterCall world c (world.service.perform c).1 (world.service.perform c).2 with
          remembered := remembered } := by
  rw [runIn, if_neg (by simp [hactive])]

/-- The world after a call to a service in memory. -/
def answered (world : World) (memory : Memory) (remembered : Remembered) (c : Call) : World :=
  { Pass.afterCall world c (memory.perform c).1 (.memory (memory.perform c).2) with
    remembered := remembered }

theorem runIn_ask_in_memory {world : World} {memory : Memory}
    (hservice : world.service = .memory memory) (hactive : world.cancelled = false)
    (remembered : Remembered) (c : Call) (next : Except ApiError c.Answer → Dialogue α) :
    runIn world (.ask remembered c next) =
      (next (memory.perform c).1).runIn (answered world memory remembered c) := by
  rw [runIn_ask_of_active hactive, hservice]
  rfl

/-- What is remembered when a dialogue starts is part of the dialogue. -/
theorem runIn_remembered (dialogue : Dialogue α) (world : World) (remembered : Remembered) :
    runIn { world with remembered := remembered } dialogue = runIn world dialogue := by
  cases dialogue with
  | done outcome after => rfl
  | ask after c next => rfl

def bind : Dialogue α → (α → Remembered → Dialogue β) → Dialogue β
  | .done (.ok a) remembered, follow => follow a remembered
  | .done (.error failure) remembered, _ => .done (.error failure) remembered
  | .ask remembered c next, follow =>
      .ask remembered c fun answer => (next answer).bind follow

theorem runIn_bind (dialogue : Dialogue α) (follow : α → Remembered → Dialogue β)
    (world : World) :
    runIn world (dialogue.bind follow) =
      match runIn world dialogue with
      | (.ok a, after) => runIn after (follow a after.remembered)
      | (.error failure, after) => (.error failure, after) := by
  induction dialogue generalizing world with
  | done outcome remembered =>
      cases outcome with
      | error failure => rfl
      | ok a => exact ((follow a remembered).runIn_remembered world remembered).symm
  | ask remembered c next ih =>
      cases hcancelled : world.cancelled with
      | true =>
          rw [bind, runIn_ask_of_cancelled hcancelled, runIn_ask_of_cancelled hcancelled]
      | false =>
          rw [bind, runIn_ask_of_active hcancelled, runIn_ask_of_active hcancelled]
          exact ih _ _

/-- The dialogue with its outcome seen through a function. -/
def mapOutcome (revise : Except Failure α → Except Failure β) : Dialogue α → Dialogue β
  | .done outcome remembered => .done (revise outcome) remembered
  | .ask remembered c next => .ask remembered c fun answer => (next answer).mapOutcome revise

theorem runIn_mapOutcome {revise : Except Failure α → Except Failure β}
    (hcancelled : revise (.error .cancelled) = .error .cancelled) (dialogue : Dialogue α)
    (world : World) :
    runIn world (dialogue.mapOutcome revise) =
      (revise (runIn world dialogue).1, (runIn world dialogue).2) := by
  induction dialogue generalizing world with
  | done outcome remembered => rfl
  | ask remembered c next ih =>
      cases hworld : world.cancelled with
      | true =>
          rw [mapOutcome, runIn_ask_of_cancelled hworld, runIn_ask_of_cancelled hworld,
            hcancelled]
      | false =>
          rw [mapOutcome, runIn_ask_of_active hworld, runIn_ask_of_active hworld]
          exact ih _ _

/-- An error of the service ends the dialogue and is its outcome, unless it is excused. -/
inductive Candid : Dialogue α → Prop where
  | done (outcome : Except Failure α) (remembered : Remembered) :
      Candid (.done outcome remembered)
  | ask {remembered : Remembered} {c : Call} {next : Except ApiError c.Answer → Dialogue α}
      (herror : ∀ e, c.excuses e = false →
        ∃ after, next (.error e) = .done (.error (.api e)) after)
      (hnext : ∀ answer, Candid (next answer)) : Candid (.ask remembered c next)

theorem Candid.bind {dialogue : Dialogue α} {follow : α → Remembered → Dialogue β}
    (hdialogue : Candid dialogue) (hfollow : ∀ a remembered, Candid (follow a remembered)) :
    Candid (dialogue.bind follow) := by
  induction hdialogue with
  | done outcome remembered =>
      cases outcome with
      | error failure => exact .done _ _
      | ok a => exact hfollow a remembered
  | ask herror hnext ih =>
      -- A dialogue that has ended with an error is not followed by anything.
      refine .ask (fun e hexcuse => ?_) ih
      obtain ⟨after, hafter⟩ := herror e hexcuse
      exact ⟨after, by rw [hafter, Dialogue.bind]⟩

theorem Candid.mapOutcome {revise : Except Failure α → Except Failure β}
    (happi : ∀ e, revise (.error (.api e)) = .error (.api e)) {dialogue : Dialogue α}
    (hdialogue : Candid dialogue) : Candid (dialogue.mapOutcome revise) := by
  induction hdialogue with
  | done outcome remembered => exact .done _ _
  | ask herror hnext ih =>
      refine .ask (fun e hexcuse => ?_) ih
      obtain ⟨after, hafter⟩ := herror e hexcuse
      exact ⟨after, by rw [hafter, Dialogue.mapOutcome, happi]⟩

end Dialogue

theorem Dialogue.listingSize_runIn {α : Type} (dialogue : Dialogue α) (world : World) :
    (dialogue.runIn world).2.service.listingSize = world.service.listingSize := by
  induction dialogue generalizing world with
  | done outcome remembered => rfl
  | ask remembered c next ih =>
      cases hcancelled : world.cancelled with
      | true => rw [runIn_ask_of_cancelled hcancelled]
      | false =>
          rw [runIn_ask_of_active hcancelled, ih]
          exact world.service.listingSize_perform c

namespace Pass

variable {α β : Type} {kind : Kind}

/-- A dialogue that, in a world with listings of these sizes, is the pass. -/
structure LaysOpen (pass : Pass α) (sizes : Listing → Nat)
    (dialogue : Remembered → Dialogue α) : Prop where
  candid : ∀ remembered, (dialogue remembered).Candid
  runIn_eq : ∀ world, world.service.listingSize = sizes →
    runIn world pass = (dialogue world.remembered).runIn world

/-- The pass makes its calls one after the other, each recorded under its own names, and what
it does next depends on nothing but the answers.  Only the number of pages it is ready to read
depends on the listings. -/
def IsDialogue (pass : Pass α) : Prop :=
  ∀ sizes, ∃ dialogue, LaysOpen pass sizes dialogue

theorem isDialogue_of_outcome {pass : Pass α} (outcome : Remembered → Except Failure α)
    (revise : Remembered → Remembered)
    (hrun : ∀ world, runIn world pass =
      (outcome world.remembered, { world with remembered := revise world.remembered })) :
    IsDialogue pass :=
  fun _ => ⟨fun remembered => .done (outcome remembered) (revise remembered),
    fun _ => .done _ _, fun world _ => hrun world⟩

theorem isDialogue_pure (a : α) : IsDialogue (pure a : Pass α) :=
  isDialogue_of_outcome (fun _ => .ok a) id fun _ => rfl

theorem isDialogue_liftExcept (outcome : Except Failure α) :
    IsDialogue (liftExcept outcome : Pass α) :=
  isDialogue_of_outcome (fun _ => outcome) id fun world => runIn_liftExcept world outcome

theorem isDialogue_modifyRemembered (revise : Remembered → Remembered) :
    IsDialogue (modifyRemembered revise) :=
  isDialogue_of_outcome (fun _ => .ok ()) revise fun _ => rfl

/-- A pass that makes one call, and no more than look at the answer. -/
theorem isDialogue_of_answer {pass : Pass α} (c : Call)
    (outcome : Except ApiError c.Answer → Except Failure α)
    (hcancelled : ∀ world, world.cancelled = true →
      runIn world pass = (.error .cancelled, world))
    (hactive : ∀ world, world.cancelled = false →
      runIn world pass = (outcome (world.service.perform c).1,
        afterCall world c (world.service.perform c).1 (world.service.perform c).2))
    (herror : ∀ e, c.excuses e = false → outcome (.error e) = .error (.api e)) :
    IsDialogue pass := by
  intro sizes
  refine ⟨fun remembered => .ask remembered c fun answer => .done (outcome answer) remembered,
    fun remembered => ?_, fun world _ => ?_⟩
  · refine .ask (fun e hexcuse => ⟨remembered, ?_⟩) fun _ => .done _ _
    rw [herror e hexcuse]
  · cases hworld : world.cancelled with
    | true => rw [hcancelled world hworld, Dialogue.runIn_ask_of_cancelled hworld]
    | false =>
        rw [hactive world hworld, Dialogue.runIn_ask_of_active hworld]
        rfl

theorem isDialogue_call (c : Call) : IsDialogue (call c) :=
  isDialogue_of_answer c (fun answer => answer.mapError .api)
    (fun _ hcancelled => runIn_call_of_cancelled hcancelled c)
    (fun _ hactive => runIn_call_of_active hactive c) fun _ _ => rfl

theorem isDialogue_bind {pass : Pass α} {next : α → Pass β} (hpass : IsDialogue pass)
    (hnext : ∀ a, IsDialogue (next a)) : IsDialogue (pass >>= next) := by
  intro sizes
  obtain ⟨first, hfirst⟩ := hpass sizes
  choose follow hfollow using fun a => hnext a sizes
  refine ⟨fun remembered => (first remembered).bind follow, ?_, ?_⟩
  · exact fun remembered => (hfirst.candid remembered).bind fun a => (hfollow a).candid
  · intro world hsizes
    rw [runIn_bind, Dialogue.runIn_bind, hfirst.runIn_eq world hsizes]
    have hafter := (first world.remembered).listingSize_runIn world
    cases hrun : (first world.remembered).runIn world with
    | mk outcome after =>
        cases outcome with
        | error failure => rfl
        | ok a =>
            rw [hrun] at hafter
            exact (hfollow a).runIn_eq after (hafter.trans hsizes)

theorem isDialogue_mapOutcome {pass : Pass α} {other : Pass β}
    {revise : Except Failure α → Except Failure β} (hpass : IsDialogue pass)
    (hother : ∀ world, runIn world other = (revise (runIn world pass).1, (runIn world pass).2))
    (hcancelled : revise (.error .cancelled) = .error .cancelled)
    (happi : ∀ e, revise (.error (.api e)) = .error (.api e)) : IsDialogue other := by
  intro sizes
  obtain ⟨dialogue, hdialogue⟩ := hpass sizes
  refine ⟨fun remembered => (dialogue remembered).mapOutcome revise, ?_, ?_⟩
  · exact fun remembered => (hdialogue.candid remembered).mapOutcome happi
  · intro world hsizes
    rw [hother, hdialogue.runIn_eq world hsizes, Dialogue.runIn_mapOutcome hcancelled]

/-! ## Handlers -/

/-- An outcome that is good in spite of an error with a text. -/
def overlooking (needle : String) : Except Failure Unit → Except Failure Unit
  | .error (.api e) => if e.mentions needle then .ok () else .error (.api e)
  | outcome => outcome

theorem runIn_unlessMentioned (needle : String) (pass : Pass Unit) (world : World) :
    runIn world (unlessMentioned needle pass) =
      (overlooking needle (runIn world pass).1, (runIn world pass).2) := by
  rw [unlessMentioned, runIn_tryCatch]
  cases runIn world pass with
  | mk outcome after =>
      cases outcome with
      | ok done => rfl
      | error failure =>
          cases failure with
          | api e =>
              by_cases hmentions : e.mentions needle = true
              · simp [overlooking, hmentions]
              · simp [overlooking, hmentions]
          | _ => rfl

/-- A pass whose one call the service may refuse for good reason. -/
theorem isDialogue_unlessMentioned {needle : String} {c : Call} {pass : Pass Unit}
    {outcome : Except ApiError c.Answer → Except Failure Unit}
    (hcancelled : ∀ world, world.cancelled = true →
      runIn world pass = (.error .cancelled, world))
    (hactive : ∀ world, world.cancelled = false →
      runIn world pass = (outcome (world.service.perform c).1,
        afterCall world c (world.service.perform c).1 (world.service.perform c).2))
    (herror : ∀ e, outcome (.error e) = .error (.api e))
    (hexcuses : ∀ e, c.excuses e = false → e.mentions needle = false) :
    IsDialogue (unlessMentioned needle pass) := by
  refine isDialogue_of_answer c (fun answer => overlooking needle (outcome answer)) ?_ ?_ ?_
  · intro world hworld
    rw [runIn_unlessMentioned, hcancelled world hworld]
    rfl
  · intro world hworld
    rw [runIn_unlessMentioned, hactive world hworld]
  · intro e hexcuse
    rw [herror]
    exact if_neg (by simp [hexcuses e hexcuse])

theorem isDialogue_start (region : Option String) (request : ReplicationStart) :
    IsDialogue (unlessMentioned "already replicating" (call (.startReplication region request))) :=
  isDialogue_unlessMentioned (fun _ hcancelled => runIn_call_of_cancelled hcancelled _)
    (fun _ hactive => runIn_call_of_active hactive _) (fun _ => rfl) fun _ hexcuse => hexcuse

theorem isDialogue_stop (region : Option String) (source : String) :
    IsDialogue (unlessMentioned "not replicating" (call (.stopReplication region source))) :=
  isDialogue_unlessMentioned (fun _ hcancelled => runIn_call_of_cancelled hcancelled _)
    (fun _ hactive => runIn_call_of_active hactive _) (fun _ => rfl) fun _ hexcuse => hexcuse

/-- An outcome in which an obstacle has become the decision to give up. -/
def abandoning (now : Moment) (doc : Document kind) :
    Except Failure (Outcome kind) → Except Failure (Outcome kind)
  | .error (.obstacle o) => .ok (.abandoned now o.message doc)
  | outcome => outcome

theorem runIn_orAbandon (now : Moment) (doc : Document kind) (pass : Pass (Outcome kind))
    (world : World) :
    runIn world (orAbandon now doc pass) =
      (abandoning now doc (runIn world pass).1, (runIn world pass).2) := by
  rw [orAbandon, runIn_tryCatch]
  cases runIn world pass with
  | mk outcome after =>
      cases outcome with
      | ok done => rfl
      | error failure => cases failure <;> rfl

/-! ## Listings and traits -/

theorem isDialogue_entriesFrom (listing : Listing) (fuel : Nat) (marker : Option String) :
    IsDialogue (entriesFrom listing fuel marker) := by
  induction fuel generalizing marker with
  | zero => exact isDialogue_pure []
  | succ fuel ih =>
      refine isDialogue_bind (isDialogue_call (.list listing marker)) fun page => ?_
      cases page.next with
      | none => exact isDialogue_pure _
      | some next => exact isDialogue_bind (ih (some next)) fun rest => isDialogue_pure _

theorem isDialogue_entries (listing : Listing) : IsDialogue (entries listing) := by
  intro sizes
  obtain ⟨dialogue, hdialogue⟩ :=
    isDialogue_entriesFrom listing (sizes listing + 1) none sizes
  refine ⟨dialogue, hdialogue.candid, fun world hsizes => ?_⟩
  rw [← hdialogue.runIn_eq world hsizes, ← hsizes]
  rfl

theorem isDialogue_loadFamily (scope : Scope) (familyName : String) :
    IsDialogue (loadFamily scope familyName) :=
  isDialogue_bind (isDialogue_modifyRemembered _) fun _ =>
    isDialogue_bind (isDialogue_entries _) fun _ =>
      isDialogue_bind (isDialogue_modifyRemembered _) fun _ => isDialogue_pure _

theorem isDialogue_family (scope : Scope) (familyName : String) :
    IsDialogue (family scope familyName) := by
  intro sizes
  obtain ⟨load, hload⟩ := isDialogue_loadFamily scope familyName sizes
  refine ⟨fun remembered => (remembered.families scope familyName).elim (load remembered)
    fun traits => .done (.ok traits) remembered.withHit, fun remembered => ?_,
      fun world hsizes => ?_⟩
  · cases remembered.families scope familyName with
    | some traits => exact .done _ _
    | none => exact hload.candid remembered
  · rw [runIn_family]
    cases world.remembered.families scope familyName with
    | some traits => rfl
    | none => exact hload.runIn_eq world hsizes

theorem isDialogue_traitsIn (scope : Scope) (familyName name : String) :
    IsDialogue (traitsIn scope familyName name) :=
  isDialogue_bind (isDialogue_family scope familyName) fun _ => isDialogue_liftExcept _

theorem isDialogue_traitsFor (scope : Scope) (familyName name : String) :
    IsDialogue (traitsFor scope familyName name) := by
  cases scope with
  | dbInstance => exact isDialogue_traitsIn .dbInstance familyName name
  | cluster =>
      refine isDialogue_bind (isDialogue_family .cluster familyName) fun traits => ?_
      cases traits.get? name with
      | some found => exact isDialogue_pure found
      | none => exact isDialogue_traitsIn .dbInstance familyName name

/-! ## Overrides and tags -/

theorem isDialogue_entriesOf (group : ParameterGroup) (items : List (String × Option String)) :
    IsDialogue (entriesOf group items) := by
  induction items with
  | nil => exact isDialogue_pure []
  | cons item rest ih =>
      exact isDialogue_bind (isDialogue_traitsFor _ _ _) fun _ =>
        isDialogue_bind (isDialogue_liftExcept _) fun _ =>
          isDialogue_bind ih fun _ => isDialogue_pure _

theorem isDialogue_resetBatches (group : ParameterGroup) (parts : List (List ParameterEntry)) :
    IsDialogue (resetBatches group parts) := by
  induction parts with
  | nil => exact isDialogue_pure ()
  | cons part rest ih => exact isDialogue_bind (isDialogue_call _) fun _ => ih

theorem isDialogue_modifyBatches (group : ParameterGroup) (parts : List (List ParameterEntry)) :
    IsDialogue (modifyBatches group parts) := by
  induction parts with
  | nil => exact isDialogue_pure ()
  | cons part rest ih => exact isDialogue_bind (isDialogue_call _) fun _ => ih

theorem isDialogue_settleOverrides (context : Context) (group : ParameterGroup)
    (desired observed : Overrides) :
    IsDialogue (settleOverrides context group desired observed) := by
  unfold settleOverrides
  split
  · exact isDialogue_pure ()
  · exact isDialogue_bind (isDialogue_entriesOf _ _) fun _ =>
      isDialogue_bind (isDialogue_entriesOf _ _) fun _ =>
        isDialogue_bind (isDialogue_resetBatches _ _) fun _ => isDialogue_modifyBatches _ _

theorem isDialogue_settleTags (arn : String) (desired observed : List Tag) :
    IsDialogue (settleTags arn desired observed) := by
  refine isDialogue_bind ?_ fun _ => ?_
  · unfold removeTags
    split
    · exact isDialogue_pure ()
    · exact isDialogue_call _
  · unfold addTags
    split
    · exact isDialogue_pure ()
    · exact isDialogue_call _

/-! ## Updates -/

theorem isDialogue_updateTags (arn : String) (desired observed : Document kind)
    (changes : Changes) : IsDialogue (updateTags arn desired observed changes) := by
  unfold updateTags
  split
  · exact isDialogue_settleTags _ _ _
  · exact isDialogue_pure ()

theorem isDialogue_takeStep (settings : Settings) (step : Replication.Step) :
    IsDialogue (takeStep settings step) := by
  cases step with
  | nothing => exact isDialogue_pure _
  | wait reason => exact isDialogue_pure _
  | start region request =>
      exact isDialogue_bind (isDialogue_start _ _) fun _ => isDialogue_pure _
  | stop region source =>
      exact isDialogue_bind (isDialogue_stop _ _) fun _ => isDialogue_pure _

/-- What every modify call looks like: a request is built, sent and answered. -/
theorem isDialogue_send {ρ : Type} (request : Except Failure ρ) (toCall : ρ → Call) (a : α) :
    IsDialogue (liftExcept request >>= fun r => call (toCall r) >>= fun _ => pure a) :=
  isDialogue_bind (isDialogue_liftExcept _) fun _ =>
    isDialogue_bind (isDialogue_call _) fun _ => isDialogue_pure _

theorem isDialogue_finishInstance (context : Context) (desired observed : Document .dbInstance)
    (changes : Changes) : IsDialogue (finishInstance context desired observed changes) := by
  unfold finishInstance
  split
  · exact isDialogue_send _ .modifyInstance _
  · split
    · exact isDialogue_pure _
    · exact isDialogue_pure _

theorem isDialogue_updateOverrides {scope : Scope} (context : Context)
    (desired observed : Document (.parameterGroup scope)) (changes : Changes) :
    IsDialogue (updateOverrides context desired observed changes) := by
  unfold updateOverrides
  split
  · exact isDialogue_bind (isDialogue_liftExcept _) fun _ => isDialogue_settleOverrides _ _ _ _
  · exact isDialogue_pure ()

theorem isDialogue_afterTags (context : Context) (arn : String)
    (desired observed : Document kind) (changes : Changes) :
    IsDialogue (afterTags kind context arn desired observed changes) := by
  cases kind with
  | dbInstance =>
      refine isDialogue_bind (isDialogue_bind (isDialogue_liftExcept _) fun step =>
        isDialogue_takeStep _ step) fun decision => ?_
      cases decision with
      | retryAfter after reason => exact isDialogue_pure _
      | proceed => exact isDialogue_finishInstance context desired observed changes
      | failTerminal reason => exact isDialogue_finishInstance context desired observed changes
  | dbCluster =>
      rw [afterTags]
      split
      · exact isDialogue_send _ .modifyCluster _
      · exact isDialogue_pure _
  | parameterGroup scope =>
      exact isDialogue_bind (isDialogue_updateOverrides _ _ _ _) fun _ => isDialogue_pure _
  | subnetGroup =>
      rw [afterTags]
      split
      · exact isDialogue_send _ .modifySubnetGroup _
      · exact isDialogue_pure _
  | snapshot scope => exact isDialogue_pure _

theorem isDialogue_update (context : Context) (desired observed : Document kind)
    (changes : Changes) : IsDialogue (update kind context desired observed changes) := by
  rw [update_eq_tags_first]
  exact isDialogue_bind (isDialogue_liftExcept _) fun arn =>
    isDialogue_bind (isDialogue_updateTags _ _ _ _) fun _ =>
      isDialogue_afterTags context arn desired observed changes

theorem isDialogue_settle (context : Context) (desired observed : Document kind) :
    IsDialogue (settle context desired observed) := by
  unfold settle follow
  cases (Plan.of context.settings desired observed).decision with
  | failTerminal reason => exact isDialogue_pure _
  | retryAfter after reason => exact isDialogue_pure _
  | proceed =>
      simp only
      unfold proceed
      split
      · exact isDialogue_pure _
      · exact isDialogue_mapOutcome (isDialogue_update context _ _ _)
          (fun world => runIn_orAbandon _ _ _ world) rfl fun _ => rfl

end Pass
end DbSteward
