import DbSteward.Pass.Deletion
import DbSteward.Proofs.Dialogue
import DbSteward.Proofs.Lookup

/-!
# What is recorded of a call

Whoever makes a call says under which category and which operation it is recorded.  Whatever
the engine is asked to do, and whatever calls the service refuses or answers with a
cancellation, the records are those of the calls that the service received, one for each and
in their order, under the names that the service itself uses.
-/

namespace DbSteward

/-- Calls to a service in memory, one after the other, each with the error if it was refused.
Once the token is cancelled, before the first call or by one of them, no further call is
made. -/
inductive Exchanges : Bool → Memory → List (Call × Option ApiError) → Bool → Memory → Prop where
  | none (cancelled : Bool) (memory : Memory) : Exchanges cancelled memory [] cancelled memory
  | more {memory after : Memory} {c : Call} {rest : List (Call × Option ApiError)}
      {cancelled : Bool}
      (hrest : Exchanges (memory.cancelsOn c) (memory.perform c).2 rest cancelled after) :
      Exchanges false memory ((c, refusalOf (memory.perform c).1) :: rest) cancelled after

namespace Exchanges

variable {memory after : Memory} {exchanged : List (Call × Option ApiError)}
  {before cancelled : Bool}

theorem eq_nil (hexchanges : Exchanges true memory exchanged cancelled after) :
    exchanged = [] := by
  cases hexchanges with
  | none => rfl

/-- The service remembers the calls that were made, and no others. -/
theorem calls_eq (hexchanges : Exchanges before memory exchanged cancelled after) :
    after.calls = memory.calls ++ exchanged.map Prod.fst := by
  induction hexchanges with
  | none cancelled memory => exact (List.append_nil _).symm
  | @more memory after c rest cancelled hrest ih =>
      rw [ih, memory.calls_perform, List.map_cons, List.append_assoc]
      rfl

end Exchanges

/-! ## Dialogues are recorded call by call -/

/-- The service has had the exchanges, and the log has grown by a record of each under the
call's own names. -/
structure Recorded (world : World) (memory : Memory) (exchanged : List (Call × Option ApiError))
    (after : World) (final : Memory) : Prop where
  exchanges : Exchanges world.cancelled memory exchanged after.cancelled final
  service : after.service = .memory final
  log : after.log = world.log ++ exchanged.map fun exchange => .of exchange.1 exchange.2

namespace Dialogue

variable {α : Type}

theorem log_answered (world : World) (memory : Memory) (remembered : Remembered) (c : Call) :
    (answered world memory remembered c).log =
      world.log ++ [.of c (refusalOf (memory.perform c).1)] :=
  Pass.log_afterCall world c (memory.perform c).1 (.memory (memory.perform c).2)

theorem service_answered (world : World) (memory : Memory) (remembered : Remembered) (c : Call) :
    (answered world memory remembered c).service = .memory (memory.perform c).2 :=
  rfl

theorem cancelled_answered {world : World} {memory : Memory}
    (hservice : world.service = .memory memory) (hactive : world.cancelled = false)
    (remembered : Remembered) (c : Call) :
    (answered world memory remembered c).cancelled = memory.cancelsOn c := by
  simp [answered, Pass.afterCall, hservice, hactive, Service.cancelsOn]

theorem exists_recorded (dialogue : Dialogue α) {world : World} {memory : Memory}
    (hservice : world.service = .memory memory) :
    ∃ exchanged final, Recorded world memory exchanged (dialogue.runIn world).2 final := by
  -- What is asked is one exchange; what follows runs in the world that its answer left.
  induction dialogue generalizing world memory with
  | done outcome remembered =>
      exact ⟨[], memory, .none _ _, hservice, (List.append_nil _).symm⟩
  | ask remembered c next ih =>
      cases hcancelled : world.cancelled with
      | true =>
          rw [runIn_ask_of_cancelled hcancelled]
          exact ⟨[], memory, .none _ _, hservice, (List.append_nil _).symm⟩
      | false =>
          have hflag := cancelled_answered hservice hcancelled remembered c
          have hlog := log_answered world memory remembered c
          rw [runIn_ask_in_memory hservice hcancelled]
          obtain ⟨exchanged, final, hexchanges, hfinal, hrest⟩ :=
            ih (memory.perform c).1 (service_answered world memory remembered c)
          refine ⟨(c, refusalOf (memory.perform c).1) :: exchanged, final, ?_, hfinal, ?_⟩
          · rw [hflag] at hexchanges
            rw [hcancelled]
            exact .more hexchanges
          · rw [hrest, hlog, List.append_assoc]
            rfl

end Dialogue

namespace Pass

variable {α : Type}

theorem IsDialogue.exists_recorded {pass : Pass α} (hpass : IsDialogue pass) {world : World}
    {memory : Memory} (hservice : world.service = .memory memory) :
    ∃ exchanged final, Recorded world memory exchanged (runIn world pass).2 final := by
  obtain ⟨dialogue, hdialogue⟩ := hpass world.service.listingSize
  rw [hdialogue.runIn_eq world rfl]
  exact (dialogue world.remembered).exists_recorded hservice

/-! ## What the engine can be asked to do -/

theorem isDialogue_deleteCluster (settings : Settings) (observed : Document .dbCluster) :
    IsDialogue (deleteCluster settings observed) := by
  unfold deleteCluster
  split
  · exact isDialogue_pure _
  · exact isDialogue_send _ .deleteCluster _

theorem isDialogue_deleteInstance (settings : Settings) (observed : Document .dbInstance) :
    IsDialogue (deleteInstance settings observed) := by
  unfold deleteInstance
  split
  · exact isDialogue_pure _
  · exact isDialogue_send _ .deleteInstance _

theorem isDialogue_settleReplication (settings : Settings) (intent : Replication.Intent)
    (observed : Replication.Observation) :
    IsDialogue (settleReplication settings intent observed) :=
  isDialogue_bind (isDialogue_liftExcept _) fun step => isDialogue_takeStep settings step

end Pass

/-- An operation of the engine with all that it is given beside the context. -/
inductive Errand where
  | settle {kind : Kind} (desired observed : Document kind)
  | deleteCluster (observed : Document .dbCluster)
  | deleteInstance (observed : Document .dbInstance)
  | settleTags (arn : String) (desired observed : List Tag)
  | fetchTags (arn : String)
  | settleOverrides (group : ParameterGroup) (desired observed : Overrides)
  | fetchOverrides (scope : Scope) (group : String)
  | lookUp (lookup : Lookup)
  | settleReplication (intent : Replication.Intent) (observed : Replication.Observation)

namespace Errand

@[reducible] def Result : Errand → Type
  | @settle kind _ _ => Outcome kind
  | .deleteCluster _ => Decision
  | .deleteInstance _ => Decision
  | .settleTags _ _ _ => Unit
  | .fetchTags _ => List Tag
  | .settleOverrides _ _ _ => Unit
  | .fetchOverrides _ _ => Overrides
  | .lookUp _ => Traits
  | .settleReplication _ _ => Decision

def pass (context : Context) : (errand : Errand) → Pass errand.Result
  | .settle desired observed => Pass.settle context desired observed
  | .deleteCluster observed => Pass.deleteCluster context.settings observed
  | .deleteInstance observed => Pass.deleteInstance context.settings observed
  | .settleTags arn desired observed => Pass.settleTags arn desired observed
  | .fetchTags arn => Pass.fetchTags arn
  | .settleOverrides group desired observed =>
      Pass.settleOverrides context group desired observed
  | .fetchOverrides scope group => Pass.fetchOverrides scope group
  | .lookUp lookup => lookup.pass
  | .settleReplication intent observed =>
      Pass.settleReplication context.settings intent observed

theorem isDialogue_pass (context : Context) (errand : Errand) :
    Pass.IsDialogue (errand.pass context) := by
  cases errand with
  | settle desired observed => exact Pass.isDialogue_settle context desired observed
  | deleteCluster observed => exact Pass.isDialogue_deleteCluster context.settings observed
  | deleteInstance observed => exact Pass.isDialogue_deleteInstance context.settings observed
  | settleTags arn desired observed => exact Pass.isDialogue_settleTags arn desired observed
  | fetchTags arn => exact Pass.isDialogue_call (.listTags arn)
  | settleOverrides group desired observed =>
      exact Pass.isDialogue_settleOverrides context group desired observed
  | fetchOverrides scope group =>
      exact Pass.isDialogue_bind (Pass.isDialogue_entries _) fun _ => Pass.isDialogue_pure _
  | lookUp lookup =>
      cases lookup with
      | within scope familyName name => exact Pass.isDialogue_traitsIn scope familyName name
      | withFallback familyName name => exact Pass.isDialogue_traitsFor .cluster familyName name
  | settleReplication intent observed =>
      exact Pass.isDialogue_settleReplication context.settings intent observed

/-- Every call is recorded once.  The records that an operation of the engine leaves are those
of the calls that the service received, in their order: each under the category and the name
that the call has for the service, with an error if and only if the service refused the call
with it.  Once the token is cancelled there are no further calls. -/
theorem every_call_recorded_once (context : Context) (errand : Errand) {world : World}
    {memory : Memory} (hservice : world.service = .memory memory) :
    ∃ exchanged final,
      Exchanges world.cancelled memory exchanged
        (Pass.runIn world (errand.pass context)).2.cancelled final ∧
      (Pass.runIn world (errand.pass context)).2.service = .memory final ∧
      final.calls = memory.calls ++ exchanged.map (·.1) ∧
      (Pass.events world (errand.pass context)).map (fun e => (e.category, e.operation, e.error)) =
        exchanged.map (fun exchange =>
          (exchange.1.category, exchange.1.operation, exchange.2)) ∧
      (world.cancelled = true → exchanged = []) := by
  obtain ⟨exchanged, final, hexchanges, hfinal, hlog⟩ :=
    (errand.isDialogue_pass context).exists_recorded hservice
  refine ⟨exchanged, final, hexchanges, hfinal, hexchanges.calls_eq, ?_, fun hcancelled => ?_⟩
  · rw [Pass.events_of_log_eq hlog, List.map_map]
    rfl
  · rw [hcancelled] at hexchanges
    exact hexchanges.eq_nil

/-- Cancelled while old tags are removed, an operation does not write the new ones: there is one
record and one call. -/
theorem removal_recorded_before_cancellation :
    ∃ final,
      (Pass.runIn
          (.initial (.memory (Memory.fresh.withCancellation (.once "RemoveTagsFromResource" 1))))
          ((settleTags "arn:main" [⟨"zone", some "b"⟩] [⟨"owner", some "ops"⟩]).pass
            .sample)).2.service = .memory final ∧
        final.calls.map Call.operation = ["RemoveTagsFromResource"] := by
  have hservice : (World.initial (.memory (Memory.fresh.withCancellation
      (.once "RemoveTagsFromResource" 1)))).service =
        .memory (Memory.fresh.withCancellation (.once "RemoveTagsFromResource" 1)) := rfl
  obtain ⟨exchanged, final, -, hfinal, hcalls, hrecords, -⟩ := every_call_recorded_once .sample
    (settleTags "arn:main" [⟨"zone", some "b"⟩] [⟨"owner", some "ops"⟩]) hservice
  have hone : exchanged.map (fun exchange =>
      (exchange.1.category, exchange.1.operation, exchange.2)) =
        [(.update, "RemoveTagsFromResource", none)] := by
    rw [← hrecords]
    decide +kernel
  have hnames := congrArg (List.map fun record => record.2.1) hone
  rw [List.map_map] at hnames
  refine ⟨final, hfinal, ?_⟩
  rw [hcalls, List.map_append, List.map_map]
  exact hnames

end Errand
end DbSteward
