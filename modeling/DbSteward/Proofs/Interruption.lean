import DbSteward.Proofs.Memory
import DbSteward.Proofs.Order

/-!
# Passes under interruption

A service in memory can be told to refuse the n-th call of a pass, or to cancel the pass while
it answers that call.  Up to this call the disturbed pass and the undisturbed one are the same
dialogue with the same answers; after it the disturbed pass makes no call any more.
-/

namespace DbSteward

/-- What happens to a call that went undisturbed before. -/
inductive Disturbance where
  | refusal (e : ApiError)
  | cancellation

namespace Memory

/-- A service to which something happens when a trigger is met, ahead of all earlier rules. -/
def disturbed (memory : Memory) (trigger : Trigger) : Disturbance → Memory
  | .refusal e => { memory with refusals := (trigger, e) :: memory.refusals }
  | .cancellation => { memory with cancellations := trigger :: memory.cancellations }

/-- The rule about a call that is made when some others have been. -/
def next (memory : Memory) (c : Call) (between : List Call) : Trigger :=
  .once c.operation
    (memory.count c.operation + between.countP (·.operation == c.operation) + 1)

variable {memory : Memory} {trigger : Trigger} {c : Call} {d : Disturbance}

theorem count_disturbed (memory : Memory) (trigger : Trigger) (d : Disturbance)
    (operation : String) :
    (memory.disturbed trigger d).count operation = memory.count operation := by
  cases d <;> rfl

theorem isAbout_next (memory : Memory) (c : Call) :
    (memory.next c []).isAbout c.operation (memory.count c.operation + 1) = true := by
  simp [next, Trigger.once, Trigger.isAbout]

/-- A rule about a later call is not about this one. -/
theorem not_isAbout_next (memory : Memory) (other c : Call) (between : List Call) :
    (memory.next c (other :: between)).isAbout other.operation
      (memory.count other.operation + 1) = false := by
  cases hsame : c.operation == other.operation with
  | false => simp [next, Trigger.once, Trigger.isAbout, hsame]
  | true =>
      have hother : other.operation = c.operation := (beq_iff_eq.1 hsame).symm
      simp only [next, Trigger.once, Trigger.isAbout, hother, Bool.true_and,
        beq_eq_false_iff_ne, List.countP_cons_of_pos, beq_self_eq_true]
      omega

theorem next_perform (memory : Memory) (other c : Call) (between : List Call) :
    (memory.perform other).2.next c between = memory.next c (other :: between) := by
  rw [next, next, count_perform, List.countP_cons]
  congr 1
  omega

/-- A cancellation changes no answer. -/
theorem perform_cancelled (memory : Memory) (trigger : Trigger) (c : Call) :
    (memory.disturbed trigger .cancellation).perform c =
      ((memory.perform c).1, (memory.perform c).2.disturbed trigger .cancellation) := by
  have hrefusal : (memory.disturbed trigger .cancellation).refusal? c = memory.refusal? c := rfl
  rw [perform, perform, hrefusal]
  cases memory.refusal? c with
  | some e => rfl
  | none => cases c <;> rfl

/-- A call that the trigger is not about is answered as without the disturbance. -/
theorem perform_disturbed
    (hnot : trigger.isAbout c.operation (memory.count c.operation + 1) = false) :
    (memory.disturbed trigger d).perform c =
      ((memory.perform c).1, (memory.perform c).2.disturbed trigger d) := by
  cases d with
  | cancellation => exact perform_cancelled memory trigger c
  | refusal e =>
      have hrefusal : (memory.disturbed trigger (.refusal e)).refusal? c =
          memory.refusal? c := by
        rw [refusal?, count_disturbed, disturbed, List.find?_cons_of_neg (by simp [hnot])]
        rfl
      rw [perform, perform, hrefusal]
      cases memory.refusal? c with
      | some other => rfl
      | none => cases c <;> rfl

theorem cancelsOn_disturbed
    (hnot : trigger.isAbout c.operation (memory.count c.operation + 1) = false) :
    (memory.disturbed trigger d).cancelsOn c = memory.cancelsOn c := by
  cases d with
  | refusal e => rfl
  | cancellation =>
      rw [cancelsOn, count_disturbed, disturbed, List.any_cons, hnot, Bool.false_or]
      rfl

theorem perform_refused (e : ApiError)
    (habout : trigger.isAbout c.operation (memory.count c.operation + 1) = true) :
    ((memory.disturbed trigger (.refusal e)).perform c).1 = .error e := by
  have hrefusal : (memory.disturbed trigger (.refusal e)).refusal? c = some e := by
    rw [refusal?, count_disturbed, disturbed, List.find?_cons_of_pos (by simpa using habout)]
    rfl
  rw [perform, hrefusal]

theorem cancelsOn_cancelled
    (habout : trigger.isAbout c.operation (memory.count c.operation + 1) = true) :
    (memory.disturbed trigger .cancellation).cancelsOn c = true := by
  rw [cancelsOn, count_disturbed, disturbed, List.any_cons, habout, Bool.true_or]

end Memory

/-- The world with a disturbance of its service; without a service nothing is disturbed. -/
def World.disturbed (world : World) (trigger : Trigger) (d : Disturbance) : World :=
  { world with service := world.service.mapMemory (·.disturbed trigger d) }

theorem World.service_disturbed {world : World} {memory : Memory}
    (hservice : world.service = .memory memory) (trigger : Trigger) (d : Disturbance) :
    (world.disturbed trigger d).service = .memory (memory.disturbed trigger d) := by
  rw [World.disturbed, hservice]
  rfl

namespace Dialogue

variable {α : Type} {world : World} {memory : Memory} {dialogue : Dialogue α}
  {before rest : List Event} {event : Event} {c : Call}

theorem exists_log_eq (dialogue : Dialogue α) (world : World) :
    ∃ events, (runIn world dialogue).2.log = world.log ++ events := by
  induction dialogue generalizing world with
  | done outcome remembered => exact ⟨[], (List.append_nil _).symm⟩
  | ask remembered c next ih =>
      cases hcancelled : world.cancelled with
      | true => exact ⟨[], by rw [runIn_ask_of_cancelled hcancelled, List.append_nil]⟩
      | false =>
          rw [runIn_ask_of_active hcancelled]
          obtain ⟨events, hevents⟩ := ih (world.service.perform c).1
            { Pass.afterCall world c (world.service.perform c).1 (world.service.perform c).2 with
              remembered := remembered }
          exact ⟨_, hevents.trans (List.append_assoc _ _ _)⟩

theorem exists_answered_log (world : World) (memory : Memory) (remembered : Remembered)
    (c : Call) : ∃ made : Event, made.call = c ∧
      (answered world memory remembered c).log = world.log ++ [made] :=
  ⟨_, rfl, rfl⟩

/-- A call during which the pass is cancelled leaves the log as it would be without that. -/
theorem answered_interrupted {trigger : Trigger} (hservice : world.service = .memory memory)
    (habout : trigger.isAbout c.operation (memory.count c.operation + 1) = true)
    (remembered : Remembered) :
    (answered (world.disturbed trigger .cancellation) (memory.disturbed trigger .cancellation)
        remembered c).log = (answered world memory remembered c).log ∧
      (answered (world.disturbed trigger .cancellation) (memory.disturbed trigger .cancellation)
        remembered c).cancelled = true := by
  have hcancels := Memory.cancelsOn_cancelled habout
  constructor
  · simp only [answered, Pass.afterCall, memory.perform_cancelled]
    rfl
  · simp only [answered, Pass.afterCall, World.service_disturbed hservice, Service.cancelsOn,
      hcancels, Bool.or_true]

theorem answered_disturbed {trigger : Trigger} {d : Disturbance}
    (hservice : world.service = .memory memory)
    (hnot : trigger.isAbout c.operation (memory.count c.operation + 1) = false)
    (remembered : Remembered) :
    answered (world.disturbed trigger d) (memory.disturbed trigger d) remembered c =
      (answered world memory remembered c).disturbed trigger d := by
  have hcancels : (world.disturbed trigger d).service.cancelsOn c = world.service.cancelsOn c := by
    rw [World.service_disturbed hservice, hservice]
    exact Memory.cancelsOn_disturbed hnot
  simp only [answered, Pass.afterCall, hcancels, Memory.perform_disturbed hnot]
  rfl

/-- The dialogue arrives at a call, and does so in the disturbed world too if the disturbance
is about this call. -/
structure Arrival (world : World) (memory : Memory) (dialogue : Dialogue α)
    (before : List Event) (c : Call) where
  middle : World
  store : Memory
  remembered : Remembered
  next : Except ApiError c.Answer → Dialogue α
  service_eq : middle.service = .memory store
  active : middle.cancelled = false
  log_eq : middle.log = world.log ++ before
  candid : dialogue.Candid → (ask remembered c next).Candid
  due : store.next c [] = memory.next c (before.map Event.call)
  runIn_eq : runIn world dialogue = runIn middle (.ask remembered c next)
  runIn_disturbed : ∀ d,
    runIn (world.disturbed (memory.next c (before.map Event.call)) d) dialogue =
      runIn (middle.disturbed (memory.next c (before.map Event.call)) d) (.ask remembered c next)

/-- A dialogue arrives where the one that goes on after its first call does. -/
def Arrival.afterCall {first : Call} {remembered : Remembered}
    {next : Except ApiError first.Answer → Dialogue α}
    (hservice : world.service = .memory memory) (hactive : world.cancelled = false)
    {event : Event} (hevent : (answered world memory remembered first).log = world.log ++ [event])
    (hcall : event.call = first)
    (arrival : Arrival (answered world memory remembered first) (memory.perform first).2
      (next (memory.perform first).1) before c) :
    Arrival world memory (.ask remembered first next) (event :: before) c where
  middle := arrival.middle
  store := arrival.store
  remembered := arrival.remembered
  next := arrival.next
  service_eq := arrival.service_eq
  active := arrival.active
  log_eq := by rw [arrival.log_eq, hevent, List.append_assoc]; rfl
  candid := by
    rintro (_ | ⟨herror, hnext⟩)
    exact arrival.candid (hnext _)
  due := by rw [arrival.due, Memory.next_perform, List.map_cons, hcall]
  runIn_eq := by rw [runIn_ask_in_memory hservice hactive, arrival.runIn_eq]
  runIn_disturbed := by
    intro d
    have hnot := memory.not_isAbout_next first c (before.map Event.call)
    rw [runIn_ask_in_memory (World.service_disturbed hservice _ d) hactive]
    rw [List.map_cons, hcall, Memory.perform_disturbed hnot, answered_disturbed hservice hnot,
      ← Memory.next_perform]
    exact arrival.runIn_disturbed d

theorem nonempty_arrival (hservice : world.service = .memory memory)
    (hlog : (runIn world dialogue).2.log = world.log ++ (before ++ event :: rest)) :
    Nonempty (Arrival world memory dialogue before event.call) := by
  induction dialogue generalizing world memory before with
  | done outcome remembered => simp [runIn] at hlog
  | ask remembered first next ih =>
      cases hcancelled : world.cancelled with
      | true =>
          rw [runIn_ask_of_cancelled hcancelled] at hlog
          simp at hlog
      | false =>
          have hstep := runIn_ask_in_memory hservice hcancelled remembered first next
          obtain ⟨events, hevents⟩ := exists_log_eq (next (memory.perform first).1)
            (answered world memory remembered first)
          obtain ⟨made, hcall, hanswered⟩ := exists_answered_log world memory remembered first
          have hsplit : made :: events = before ++ event :: rest := by
            rw [hstep, hevents, hanswered, List.append_assoc] at hlog
            exact List.append_cancel_left hlog
          -- The first call is the one looked for, or the dialogue arrives there later.
          cases before with
          | nil =>
              obtain ⟨rfl, rfl⟩ : made = event ∧ events = rest := by simpa using hsplit
              subst hcall
              exact ⟨world, memory, remembered, next, hservice, hcancelled,
                (List.append_nil _).symm, id, rfl, rfl, fun _ => rfl⟩
          | cons head before =>
              obtain ⟨rfl, hrest⟩ : made = head ∧ events = before ++ event :: rest := by
                simpa using hsplit
              rw [hrest] at hevents
              obtain ⟨arrival⟩ := ih _ rfl hevents
              exact ⟨arrival.afterCall hservice hcancelled hanswered hcall⟩

/-! ## The end of a disturbed dialogue -/

theorem runIn_refused (arrival : Arrival world memory dialogue before c)
    (hcandid : dialogue.Candid) {e : ApiError} (hexcuse : c.excuses e = false) :
    (runIn (world.disturbed (memory.next c (before.map Event.call)) (.refusal e)) dialogue).1 =
        .error (.api e) ∧
      (runIn (world.disturbed (memory.next c (before.map Event.call)) (.refusal e)) dialogue).2.log
        = world.log ++ before ++ [.of c (some e)] := by
  have hservice := World.service_disturbed arrival.service_eq (arrival.store.next c [])
    (.refusal e)
  have hanswer := Memory.perform_refused e (arrival.store.isAbout_next c)
  have hend : ∃ after, arrival.next (.error e) = .done (.error (.api e)) after := by
    rcases arrival.candid hcandid with _ | ⟨herror, hnext⟩
    exact herror e hexcuse
  obtain ⟨after, hafter⟩ := hend
  rw [arrival.runIn_disturbed, ← arrival.due, runIn_ask_in_memory hservice arrival.active,
    hanswer, hafter]
  refine ⟨rfl, ?_⟩
  rw [← arrival.log_eq]
  simp only [runIn, answered, Pass.afterCall, hanswer]
  rfl

/-- Cancelled before its next call, a dialogue that would have ended still ends, and one that
would have made another call does not make it. -/
theorem runIn_once_cancelled {other : World} (hcancelled : other.cancelled = true)
    {dialogue : Dialogue α} {world : World} {events : List Event}
    (hlog : (runIn world dialogue).2.log = world.log ++ events) :
    (runIn other dialogue).2.log = other.log ∧
      (runIn other dialogue).1 =
        if events.isEmpty then (runIn world dialogue).1 else .error .cancelled := by
  cases dialogue with
  | done outcome remembered =>
      have hnone : events = [] := by simpa [runIn] using hlog
      rw [hnone]
      exact ⟨rfl, rfl⟩
  | ask remembered c next =>
      rw [runIn_ask_of_cancelled hcancelled]
      refine ⟨rfl, ?_⟩
      cases hworld : world.cancelled with
      | true =>
          rw [runIn_ask_of_cancelled hworld, ite_self]
      | false =>
          obtain ⟨later, hlater⟩ := exists_log_eq (next (world.service.perform c).1)
            { Pass.afterCall world c (world.service.perform c).1 (world.service.perform c).2 with
              remembered := remembered }
          rw [runIn_ask_of_active hworld, hlater] at hlog
          have hsome : events.isEmpty = false := by
            have hevents := List.append_cancel_left ((List.append_assoc _ _ _).symm.trans hlog)
            rw [← hevents]
            rfl
          rw [hsome, if_neg (by simp)]

theorem runIn_interrupted (arrival : Arrival world memory dialogue before event.call)
    (hlog : (runIn world dialogue).2.log = world.log ++ (before ++ event :: rest)) :
    (runIn (world.disturbed (memory.next event.call (before.map Event.call)) .cancellation)
        dialogue).1 =
        (if rest.isEmpty then (runIn world dialogue).1 else .error .cancelled) ∧
      (runIn (world.disturbed (memory.next event.call (before.map Event.call)) .cancellation)
        dialogue).2.log = world.log ++ before ++ [event] := by
  obtain ⟨middle, store, remembered, next, hservice, hactive, hbefore, -, hdue, hrun, hrun'⟩ :=
    arrival
  rw [runIn_ask_in_memory hservice hactive] at hrun
  obtain ⟨made, -, hanswered⟩ := exists_answered_log middle store remembered event.call
  obtain ⟨events, hevents⟩ := exists_log_eq (next (store.perform event.call).1)
    (answered middle store remembered event.call)
  obtain ⟨rfl, rfl⟩ : made = event ∧ events = rest := by
    rw [hrun, hevents, hanswered, hbefore] at hlog
    simpa using hlog
  obtain ⟨hsame, hcancelled⟩ :=
    answered_interrupted hservice (store.isAbout_next made.call) remembered
  obtain ⟨hend, houtcome⟩ := runIn_once_cancelled hcancelled hevents
  have hdisturbed := World.service_disturbed hservice (store.next made.call []) .cancellation
  rw [hrun', ← hdue, runIn_ask_in_memory hdisturbed hactive, store.perform_cancelled, hrun]
  exact ⟨houtcome, by rw [hend, hsame, hanswered, hbefore]⟩

end Dialogue

namespace Pass

variable {α : Type} {kind : Kind} {pass : Pass α} {world : World} {memory : Memory} {n : Nat}

/-- In the other world the pass makes its first `n` calls, no other one, and ends so. -/
def StopsAfter (n : Nat) (outcome : Except Failure α) (pass : Pass α) (world other : World) :
    Prop :=
  calls other pass = (calls world pass).take n ∧ (runIn other pass).1 = outcome

/-- The world in which something happens to the call at position `n` of the pass. -/
def disturbedAt (world : World) (memory : Memory) (pass : Pass α) (n : Nat)
    (hn : n < (calls world pass).length) (d : Disturbance) : World :=
  world.disturbed (memory.next (calls world pass)[n] ((calls world pass).take n)) d

theorem listingSize_disturbed (world : World) (trigger : Trigger) (d : Disturbance) :
    (world.disturbed trigger d).service.listingSize = world.service.listingSize := by
  rw [World.disturbed]
  cases world.service with
  | unreachable => rfl
  | memory memory => cases d <;> rfl

/-- The log of a run, taken apart at one of the calls of the pass. -/
theorem IsDialogue.exists_split (hpass : IsDialogue pass) (hn : n < (calls world pass).length) :
    ∃ before event rest, (runIn world pass).2.log = world.log ++ (before ++ event :: rest) ∧
      calls world pass = before.map Event.call ++ event.call :: rest.map Event.call ∧
      before.length = n := by
  obtain ⟨dialogue, hdialogue⟩ := hpass world.service.listingSize
  obtain ⟨events, hevents⟩ :=
    Dialogue.exists_log_eq (dialogue world.remembered) world
  rw [← hdialogue.runIn_eq world rfl] at hevents
  have hcalls := calls_of_log_eq hevents
  have hlength : n < events.length := by
    rw [hcalls, List.length_map] at hn
    exact hn
  have hsplit : events.take n ++ events[n] :: events.drop (n + 1) = events := by
    rw [← List.drop_eq_getElem_cons hlength, List.take_append_drop]
  refine ⟨events.take n, events[n], events.drop (n + 1), by rw [hsplit, hevents], ?_, ?_⟩
  · rw [← List.map_cons, ← List.map_append, hsplit, hcalls]
  · rw [List.length_take, Nat.min_eq_left hlength.le]

theorem IsDialogue.stopsAfter (hpass : IsDialogue pass) (hservice : world.service = .memory memory)
    (hn : n < (calls world pass).length) :
    (∀ e, (calls world pass)[n].excuses e = false →
        StopsAfter (n + 1) (.error (.api e)) pass world
          (disturbedAt world memory pass n hn (.refusal e))) ∧
      StopsAfter (n + 1)
        (if n + 1 < (calls world pass).length then .error .cancelled else (runIn world pass).1)
        pass world (disturbedAt world memory pass n hn .cancellation) := by
  obtain ⟨before, event, rest, hlog, hcalls, hlength⟩ := hpass.exists_split hn
  obtain ⟨dialogue, hdialogue⟩ := hpass world.service.listingSize
  have hrun := hdialogue.runIn_eq world rfl
  have hcall : (calls world pass)[n] = event.call := by
    simp [hcalls, ← hlength]
  have hbefore : (calls world pass).take n = before.map Event.call := by
    simp [hcalls, ← hlength]
  have hfirst : (calls world pass).take (n + 1) = before.map Event.call ++ [event.call] := by
    rw [List.take_succ_eq_append_getElem hn, hbefore, hcall]
  have hdisturbed : ∀ d, runIn (disturbedAt world memory pass n hn d) pass =
      (dialogue world.remembered).runIn
        (world.disturbed (memory.next event.call (before.map Event.call)) d) := by
    intro d
    rw [disturbedAt, hcall, hbefore]
    exact hdialogue.runIn_eq _ (listingSize_disturbed _ _ _)
  rw [hrun] at hlog
  obtain ⟨arrival⟩ := Dialogue.nonempty_arrival hservice hlog
  constructor
  · intro e hexcuse
    rw [hcall] at hexcuse
    obtain ⟨houtcome, hend⟩ := Dialogue.runIn_refused arrival (hdialogue.candid _) hexcuse
    rw [← hdisturbed] at houtcome hend
    refine ⟨?_, houtcome⟩
    rw [hfirst, calls_of_log_eq (hend.trans (List.append_assoc _ _ _)), List.map_append]
    rfl
  · obtain ⟨houtcome, hend⟩ := Dialogue.runIn_interrupted arrival hlog
    rw [← hdisturbed] at houtcome hend
    refine ⟨?_, ?_⟩
    · rw [hfirst, calls_of_log_eq (hend.trans (List.append_assoc _ _ _)), List.map_append]
      rfl
    · rw [houtcome, ← hrun]
      cases rest with
      | nil => simp [hcalls, ← hlength]
      | cons next later => simp [hcalls, ← hlength]

/-- The mutating calls of a pass come in one order.  If one of its calls is refused, the pass
makes no further call and fails with this error; if it is cancelled during a call, it makes no
further call, and fails only if it would have made one. -/
theorem settle_calls_in_order_until_interrupted (context : Context)
    (desired observed : Document kind) (world : World) :
    (calls world (settle context desired observed)).filter Call.isMutating ∈ kind.mutations ∧
      ∀ memory, world.service = .memory memory →
        ∀ n (hn : n < (calls world (settle context desired observed)).length),
          (∀ e, (calls world (settle context desired observed))[n].excuses e = false →
            StopsAfter (n + 1) (.error (.api e)) (settle context desired observed) world
              (disturbedAt world memory (settle context desired observed) n hn (.refusal e))) ∧
          StopsAfter (n + 1)
            (if n + 1 < (calls world (settle context desired observed)).length then
              .error .cancelled
            else (runIn world (settle context desired observed)).1)
            (settle context desired observed) world
            (disturbedAt world memory (settle context desired observed) n hn .cancellation) :=
  ⟨(speaks_settle context desired observed).mem world, fun _ hservice _ hn =>
    (isDialogue_settle context desired observed).stopsAfter hservice hn⟩

/-- A pass that would remove a tag, add one and change the port, disturbed at the second call. -/
theorem tags_and_port_until_interrupted :
    ∃ hn : 1 < (calls (.initial (.memory .fresh)) (settle .sample
        (.sampleCluster "provisioned" 5433 [⟨"team", some "a"⟩] none none)
        (.sampleCluster "provisioned" 5432 [⟨"old", none⟩] (some "arn:main")
          (some "available")))).length,
      StopsAfter 2 (.error (.api ⟨"Throttling", "slow down"⟩)) (settle .sample
          (.sampleCluster "provisioned" 5433 [⟨"team", some "a"⟩] none none)
          (.sampleCluster "provisioned" 5432 [⟨"old", none⟩] (some "arn:main")
            (some "available"))) (.initial (.memory .fresh))
          (disturbedAt (.initial (.memory .fresh)) .fresh _ 1 hn
            (.refusal ⟨"Throttling", "slow down"⟩)) ∧
        StopsAfter 2 (.error .cancelled) (settle .sample
          (.sampleCluster "provisioned" 5433 [⟨"team", some "a"⟩] none none)
          (.sampleCluster "provisioned" 5432 [⟨"old", none⟩] (some "arn:main")
            (some "available"))) (.initial (.memory .fresh))
          (disturbedAt (.initial (.memory .fresh)) .fresh _ 1 hn .cancellation) := by
  have hn : 1 < (calls (.initial (.memory .fresh)) (settle .sample
      (.sampleCluster "provisioned" 5433 [⟨"team", some "a"⟩] none none)
      (.sampleCluster "provisioned" 5432 [⟨"old", none⟩] (some "arn:main")
        (some "available")))).length := by
    decide +kernel
  have hmore : 1 + 1 < (calls (.initial (.memory .fresh)) (settle .sample
      (.sampleCluster "provisioned" 5433 [⟨"team", some "a"⟩] none none)
      (.sampleCluster "provisioned" 5432 [⟨"old", none⟩] (some "arn:main")
        (some "available")))).length := by
    decide +kernel
  have hexcuse : ∀ c : Call, c.excuses ⟨"Throttling", "slow down"⟩ = false := by
    intro c
    cases c <;> rfl
  obtain ⟨hrefused, hcancelled⟩ := (settle_calls_in_order_until_interrupted .sample
    (.sampleCluster "provisioned" 5433 [⟨"team", some "a"⟩] none none)
    (.sampleCluster "provisioned" 5432 [⟨"old", none⟩] (some "arn:main")
      (some "available")) (.initial (.memory .fresh))).2 .fresh rfl 1 hn
  rw [if_pos hmore] at hcancelled
  exact ⟨hn, hrefused _ (hexcuse _), hcancelled⟩

end Pass
end DbSteward
