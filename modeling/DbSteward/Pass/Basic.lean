import DbSteward.Document.Secret
import DbSteward.Moment.Basic
import DbSteward.Service.Basic
import DbSteward.Settings

/-!
# Passes

A pass is a computation that calls the database service, may fail, and leaves behind
what the service, the log of calls and the remembered parameter traits have become.
Once a pass is cancelled it makes no further call.
-/

namespace DbSteward

/-- A call as it is recorded, under the category and the operation that whoever made it
gave, with the error if it was refused. -/
structure Event where
  call : Call
  category : Category
  operation : String
  error : Option ApiError

/-- A call recorded under its own name. -/
def Event.of (c : Call) (error : Option ApiError) : Event :=
  ⟨c, c.category, c.operation, error⟩

/-- Parameter traits that have been loaded, by scope and family. -/
structure Remembered where
  families : Scope → String → Option (Table Traits)
  /-- How often a family was looked up and already there. -/
  hits : Nat
  /-- How often a family was looked up and had to be loaded. -/
  misses : Nat

def Remembered.nothing : Remembered :=
  ⟨fun _ _ => none, 0, 0⟩

structure World where
  service : Service
  cancelled : Bool
  log : List Event
  remembered : Remembered

def World.initial (service : Service) : World :=
  ⟨service, false, [], .nothing⟩

structure Context where
  settings : Settings
  secrets : SecretRef → Option String
  now : Moment

abbrev Pass := ExceptT Failure (StateM World)

namespace Pass

variable {α β : Type}

def runIn (world : World) (pass : Pass α) : Except Failure α × World :=
  (pass.run world).run

@[simp] theorem runIn_pure (world : World) (a : α) :
    runIn world (pure a) = (.ok a, world) :=
  rfl

@[simp] theorem runIn_throw (world : World) (failure : Failure) :
    runIn world (throw failure : Pass α) = (.error failure, world) :=
  rfl

@[simp] theorem runIn_get (world : World) :
    runIn world (get : Pass World) = (.ok world, world) :=
  rfl

@[simp] theorem runIn_set (world after : World) :
    runIn world (set after : Pass PUnit) = (.ok ⟨⟩, after) :=
  rfl

@[simp] theorem runIn_liftExcept (world : World) (outcome : Except Failure α) :
    runIn world (liftExcept outcome) = (outcome, world) := by
  cases outcome <;> rfl

/-- A pass goes on in the world that the one before it left, unless that one failed. -/
theorem runIn_bind (world : World) (pass : Pass α) (next : α → Pass β) :
    runIn world (pass >>= next) =
      match runIn world pass with
      | (.ok a, after) => runIn after (next a)
      | (.error failure, after) => (.error failure, after) := by
  simp only [runIn, bind, ExceptT.bind, ExceptT.mk, ExceptT.run, StateT.bind,
    Id.run]
  cases pass world with
  | mk outcome after => cases outcome <;> rfl

@[simp] theorem runIn_map (world : World) (f : α → β) (pass : Pass α) :
    runIn world (f <$> pass) =
      ((runIn world pass).1.map f, (runIn world pass).2) := by
  rw [← bind_pure_comp, runIn_bind]
  cases runIn world pass with
  | mk outcome after => cases outcome <;> rfl

@[simp] theorem runIn_modify (world : World) (revise : World → World) :
    runIn world (modify revise : Pass PUnit) = (.ok ⟨⟩, revise world) :=
  rfl

theorem runIn_tryCatch (world : World) (pass : Pass α) (handle : Failure → Pass α) :
    runIn world (tryCatch pass handle) =
      match runIn world pass with
      | (.ok a, after) => (.ok a, after)
      | (.error failure, after) => runIn after (handle failure) := by
  simp only [runIn, tryCatch, tryCatchThe, MonadExceptOf.tryCatch, ExceptT.tryCatch,
    ExceptT.mk, ExceptT.run, bind, StateT.bind, Id.run]
  cases pass world with
  | mk outcome after => cases outcome <;> rfl

def ensureActive : Pass Unit := do
  if (← get).cancelled then
    throw .cancelled

/-- The world after a call that was answered or refused. -/
def afterCall (world : World) (c : Call) (answer : Except ApiError α) (service : Service)
    (category : Category := c.category) (operation : String := c.operation) : World :=
  { world with
    service := service
    cancelled := world.cancelled || world.service.cancelsOn c
    log := world.log ++
      [{ call := c
         category := category
         operation := operation
         error :=
           match answer with
           | .ok _ => none
           | .error e => some e }] }

/-- Makes a call and records it under a category and an operation. -/
def call (c : Call) (category : Category := c.category)
    (operation : String := c.operation) : Pass c.Answer := do
  ensureActive
  let world ← get
  let (answer, service) := world.service.perform c
  set (afterCall world c answer service category operation)
  match answer with
  | .ok value => pure value
  | .error e => throw (.api e)

theorem runIn_call_of_cancelled {world : World} (hcancelled : world.cancelled = true)
    (c : Call) {category : Category} {operation : String} :
    runIn world (call c category operation) = (.error .cancelled, world) := by
  simp [call, ensureActive, runIn_bind, hcancelled]

theorem runIn_call_of_active {world : World} (hactive : world.cancelled = false)
    (c : Call) {category : Category} {operation : String} :
    runIn world (call c category operation) =
      ((world.service.perform c).1.mapError .api,
        afterCall world c (world.service.perform c).1 (world.service.perform c).2
          category operation) := by
  cases hperform : world.service.perform c with
  | mk answer service =>
      cases answer <;> simp [call, ensureActive, runIn_bind, hactive, hperform] <;> rfl

/-- Goes on if the service refuses a call with an error that mentions a text. -/
def unlessMentioned (needle : String) (pass : Pass Unit) : Pass Unit :=
  tryCatch pass fun failure =>
    match failure with
    | .api e => if e.mentions needle then pure () else throw failure
    | _ => throw failure

def secret (context : Context) (reference : SecretRef) : Except Failure String :=
  match context.secrets reference with
  | none => .error (.secret ("secret " ++ reference.text ++ " not found"))
  | some value => .ok value

end Pass
end DbSteward
