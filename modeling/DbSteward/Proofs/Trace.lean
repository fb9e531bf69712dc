import DbSteward.Pass.Settle

/-!
# The calls that a pass makes

Every call goes into the log with its answer, whatever the service, so the calls of a pass
are what it adds there.  `Makes` bounds the calls of a pass in all worlds at once and is
proved along the structure of the pass.
-/

namespace DbSteward

def refusalOf {α : Type} : Except ApiError α → Option ApiError
  | .ok _ => none
  | .error e => some e

namespace Pass

variable {α β : Type}

def calls (world : World) (pass : Pass α) : List Call :=
  ((runIn world pass).2.log.drop world.log.length).map Event.call

/-- The calls of a pass with their answers. -/
def events (world : World) (pass : Pass α) : List Event :=
  (runIn world pass).2.log.drop world.log.length

/-- In every world the pass only adds to the log, and makes only calls that are allowed. -/
def Makes (allowed : Call → Prop) (pass : Pass α) : Prop :=
  ∀ world, ∃ events, (runIn world pass).2.log = world.log ++ events ∧
    ∀ event ∈ events, allowed event.call

variable {allowed : Call → Prop}

theorem events_of_log_eq {world : World} {pass : Pass α} {added : List Event}
    (hlog : (runIn world pass).2.log = world.log ++ added) : events world pass = added := by
  rw [events, hlog, List.drop_left]

theorem calls_of_log_eq {world : World} {pass : Pass α} {events : List Event}
    (hlog : (runIn world pass).2.log = world.log ++ events) :
    calls world pass = events.map Event.call := by
  rw [calls, hlog, List.drop_left]

theorem calls_eq_map_events (world : World) (pass : Pass α) :
    calls world pass = (events world pass).map Event.call :=
  rfl

/-- Passes that leave the same world behind have added the same to the log. -/
theorem events_eq_of_runs {first : Pass α} {second : Pass β} {world after : World}
    {result : Except Failure α} {other : Except Failure β}
    (hfirst : runIn world first = (result, after))
    (hsecond : runIn world second = (other, after)) :
    events world first = events world second := by
  rw [events, hfirst, events, hsecond]

theorem calls_eq_of_runs {first : Pass α} {second : Pass β} {world after : World}
    {result : Except Failure α} {other : Except Failure β}
    (hfirst : runIn world first = (result, after))
    (hsecond : runIn world second = (other, after)) :
    calls world first = calls world second :=
  congrArg (List.map Event.call) (events_eq_of_runs hfirst hsecond)

theorem Makes.of_mem {pass : Pass α} (hmakes : Makes allowed pass) {world : World} {c : Call}
    (hmem : c ∈ calls world pass) : allowed c := by
  obtain ⟨events, hlog, hallowed⟩ := hmakes world
  rw [calls_of_log_eq hlog] at hmem
  obtain ⟨event, hevent, rfl⟩ := List.mem_map.1 hmem
  exact hallowed event hevent

theorem Makes.mono {more : Call → Prop} {pass : Pass α} (hmakes : Makes allowed pass)
    (hmore : ∀ c, allowed c → more c) : Makes more pass := by
  intro world
  obtain ⟨events, hlog, hallowed⟩ := hmakes world
  exact ⟨events, hlog, fun event hmem => hmore _ (hallowed event hmem)⟩

theorem Makes.any {pass : Pass α} (hmakes : Makes allowed pass) : Makes (fun _ => True) pass :=
  hmakes.mono fun _ _ => trivial

theorem makes_of_same_log {pass : Pass α}
    (hlog : ∀ world, (runIn world pass).2.log = world.log) : Makes allowed pass := by
  intro world
  exact ⟨[], by rw [hlog, List.append_nil], by simp⟩

theorem makes_pure (a : α) : Makes allowed (pure a : Pass α) :=
  makes_of_same_log fun _ => rfl

theorem makes_throw (failure : Failure) : Makes allowed (throw failure : Pass α) :=
  makes_of_same_log fun _ => rfl

theorem makes_liftExcept (outcome : Except Failure α) :
    Makes allowed (liftExcept outcome : Pass α) :=
  makes_of_same_log fun world => by rw [runIn_liftExcept]

theorem makes_call {c : Call} {category : Category} {operation : String} (hc : allowed c) :
    Makes allowed (call c category operation) := by
  intro world
  cases hcancelled : world.cancelled with
  | true => exact ⟨[], by simp [runIn_call_of_cancelled hcancelled], by simp⟩
  | false =>
      rw [runIn_call_of_active hcancelled]
      exact ⟨_, rfl, by simpa using hc⟩

theorem makes_bind {pass : Pass α} {next : α → Pass β} (hpass : Makes allowed pass)
    (hnext : ∀ a, Makes allowed (next a)) : Makes allowed (pass >>= next) := by
  intro world
  obtain ⟨first, hfirst, hfirstAllowed⟩ := hpass world
  rw [runIn_bind]
  cases hrun : runIn world pass with
  | mk outcome middle =>
      rw [hrun] at hfirst
      cases outcome with
      | error failure => exact ⟨first, hfirst, hfirstAllowed⟩
      | ok a =>
          obtain ⟨second, hsecond, hsecondAllowed⟩ := hnext a middle
          refine ⟨first ++ second, ?_, ?_⟩
          · simp only at hfirst ⊢
            rw [hsecond, hfirst, List.append_assoc]
          · intro event hmem
            rcases List.mem_append.1 hmem with h | h
            · exact hfirstAllowed event h
            · exact hsecondAllowed event h

theorem makes_liftExcept_bind {outcome : Except Failure α} {next : α → Pass β}
    (hnext : ∀ a, outcome = .ok a → Makes allowed (next a)) :
    Makes allowed (liftExcept outcome >>= next) := by
  intro world
  rw [runIn_bind, runIn_liftExcept]
  cases outcome with
  | error failure => exact ⟨[], by simp, by simp⟩
  | ok a => exact hnext a rfl world

theorem makes_tryCatch {pass : Pass α} {handle : Failure → Pass α}
    (hpass : Makes allowed pass) (hhandle : ∀ failure, Makes allowed (handle failure)) :
    Makes allowed (tryCatch pass handle) := by
  intro world
  obtain ⟨first, hfirst, hfirstAllowed⟩ := hpass world
  rw [runIn_tryCatch]
  cases hrun : runIn world pass with
  | mk outcome middle =>
      rw [hrun] at hfirst
      cases outcome with
      | ok a => exact ⟨first, hfirst, hfirstAllowed⟩
      | error failure =>
          obtain ⟨second, hsecond, hsecondAllowed⟩ := hhandle failure middle
          refine ⟨first ++ second, ?_, ?_⟩
          · simp only at hfirst ⊢
            rw [hsecond, hfirst, List.append_assoc]
          · intro event hmem
            rcases List.mem_append.1 hmem with h | h
            · exact hfirstAllowed event h
            · exact hsecondAllowed event h

/-! ## Passes in sequence -/

theorem ext_runIn {first second : Pass α}
    (hruns : ∀ world, runIn world first = runIn world second) : first = second :=
  funext hruns

@[simp] theorem liftExcept_ok_bind (a : α) (next : α → Pass β) :
    ((liftExcept (Except.ok a : Except Failure α) : Pass α) >>= next) = next a :=
  ext_runIn fun world => by rw [runIn_bind, runIn_liftExcept]

theorem events_pure (world : World) (a : α) : events world (pure a : Pass α) = [] := by
  simp [events]

theorem calls_eq_nil_of_runIn {world : World} {pass : Pass α} {outcome : Except Failure α}
    (hrun : runIn world pass = (outcome, world)) : calls world pass = [] := by
  simp [calls, hrun]

theorem calls_pure (world : World) (a : α) : calls world (pure a : Pass α) = [] := by
  simp [calls]

theorem events_bind_of_ok {pass : Pass α} {next : α → Pass β} {world middle : World} {a : α}
    (hpass : Makes allowed pass) (hnext : Makes allowed (next a))
    (hrun : runIn world pass = (.ok a, middle)) :
    events world (pass >>= next) = events world pass ++ events middle (next a) := by
  obtain ⟨first, hfirst, -⟩ := hpass world
  obtain ⟨second, hsecond, -⟩ := hnext middle
  have hmiddle : middle.log = world.log ++ first := by rw [← hfirst, hrun]
  have hboth : (runIn world (pass >>= next)).2.log = world.log ++ (first ++ second) := by
    rw [runIn_bind, hrun]
    simp only
    rw [hsecond, hmiddle, List.append_assoc]
  rw [events_of_log_eq hboth, events_of_log_eq hfirst, events_of_log_eq hsecond]

theorem calls_bind_of_ok {pass : Pass α} {next : α → Pass β} {world middle : World} {a : α}
    (hpass : Makes allowed pass) (hnext : Makes allowed (next a))
    (hrun : runIn world pass = (.ok a, middle)) :
    calls world (pass >>= next) = calls world pass ++ calls middle (next a) := by
  rw [calls_eq_map_events, events_bind_of_ok hpass hnext hrun, List.map_append]
  rfl

theorem runIn_bind_eq_ok {pass : Pass α} {next : α → Pass β} {world after : World} {b : β}
    (hrun : runIn world (pass >>= next) = (.ok b, after)) :
    ∃ a middle, runIn world pass = (.ok a, middle) ∧
      runIn middle (next a) = (.ok b, after) := by
  rw [runIn_bind] at hrun
  cases hpass : runIn world pass with
  | mk outcome middle =>
      rw [hpass] at hrun
      cases outcome with
      | error failure => simp at hrun
      | ok a => exact ⟨a, middle, rfl, hrun⟩

theorem runIn_bind_eq_error {pass : Pass α} {next : α → Pass β} {world after : World}
    {failure : Failure}
    (hrun : runIn world (pass >>= next) = (.error failure, after)) :
    runIn world pass = (.error failure, after) ∨
      ∃ a middle, runIn world pass = (.ok a, middle) ∧
        runIn middle (next a) = (.error failure, after) := by
  rw [runIn_bind] at hrun
  cases hpass : runIn world pass with
  | mk outcome middle =>
      rw [hpass] at hrun
      cases outcome with
      | error other =>
          obtain ⟨hfailure, rfl⟩ := Prod.mk.inj hrun
          rw [Except.error.inj hfailure]
          exact .inl rfl
      | ok a => exact .inr ⟨a, middle, rfl, hrun⟩

theorem runIn_liftExcept_bind_eq_ok {outcome : Except Failure α} {next : α → Pass β}
    {world after : World} {b : β}
    (hrun : runIn world (liftExcept outcome >>= next) = (.ok b, after)) :
    ∃ a, outcome = .ok a ∧ runIn world (next a) = (.ok b, after) := by
  rw [runIn_bind, runIn_liftExcept] at hrun
  cases outcome with
  | error failure => simp at hrun
  | ok a => exact ⟨a, rfl, hrun⟩

/-- A call is recorded under its own names, with the error if it was refused. -/
theorem log_afterCall (world : World) (c : Call) (answer : Except ApiError α)
    (service : Service) :
    (afterCall world c answer service).log = world.log ++ [.of c (refusalOf answer)] := by
  cases answer with
  | ok value => rfl
  | error e => rfl

/-- A pass that has been cancelled is not answered, so a call with an answer was made. -/
theorem runIn_call_eq_ok {world after : World} {c : Call} {category : Category}
    {operation : String} {answer : c.Answer}
    (hrun : runIn world (call c category operation) = (.ok answer, after)) :
    world.cancelled = false ∧ (world.service.perform c).1 = .ok answer ∧
      after = afterCall world c (world.service.perform c).1 (world.service.perform c).2
        category operation := by
  cases hcancelled : world.cancelled with
  | true => simp [runIn_call_of_cancelled hcancelled] at hrun
  | false =>
      rw [runIn_call_of_active hcancelled] at hrun
      obtain ⟨hanswer, hafter⟩ := Prod.mk.inj hrun
      cases hperform : (world.service.perform c).1 with
      | error e =>
          rw [hperform] at hanswer
          exact absurd hanswer nofun
      | ok value =>
          rw [hperform] at hanswer hafter
          exact ⟨rfl, congrArg Except.ok (Except.ok.inj hanswer), hafter.symm⟩

theorem events_call_of_ok {world after : World} {c : Call} {category : Category}
    {operation : String} {answer : c.Answer}
    (hrun : runIn world (call c category operation) = (.ok answer, after)) :
    events world (call c category operation) = [⟨c, category, operation, none⟩] := by
  obtain ⟨hactive, hanswer, -⟩ := runIn_call_eq_ok hrun
  simp [events, runIn_call_of_active hactive, afterCall, hanswer]

/-- A request that was built, sent and answered is all that such a pass leaves in the log. -/
theorem send_ok {ρ : Type} {request : Except Failure ρ} {toCall : ρ → Call}
    {category : Category} {operation : String} {a b : α} {world after : World}
    (hrun : runIn world (liftExcept request >>= fun r =>
      call (toCall r) category operation >>= fun _ => pure a) = (.ok b, after)) :
    ∃ r, request = .ok r ∧
      events world (liftExcept request >>= fun r =>
        call (toCall r) category operation >>= fun _ => pure a) =
          [⟨toCall r, category, operation, none⟩] ∧ b = a := by
  obtain ⟨r, hrequest, hsend⟩ := runIn_liftExcept_bind_eq_ok hrun
  obtain ⟨answer, final, hcall, hfinal⟩ := runIn_bind_eq_ok hsend
  refine ⟨r, hrequest, ?_, (Except.ok.inj (congrArg Prod.fst hfinal)).symm⟩
  have hmakes : Makes (fun _ => True) (call (toCall r) category operation) :=
    makes_call trivial
  rw [hrequest, liftExcept_ok_bind, events_bind_of_ok hmakes (makes_pure a) hcall,
    events_call_of_ok hcall, events_pure, List.append_nil]

end Pass
end DbSteward
