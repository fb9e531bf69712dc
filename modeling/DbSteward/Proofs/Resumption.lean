import DbSteward.Proofs.Overrides
import DbSteward.Proofs.Reading

/-!
# Settling overrides in several attempts

The service in memory does not keep the overrides of a group, so what is live is read off the
log: a reset that was answered deletes its names, a write that was answered sets its values,
and a call that was refused does nothing.  However a pass that settles overrides ends, it has
carried out the first batches of its edit and left the others, and a later pass goes on there.
-/

namespace DbSteward

open Overrides (Change edit)

/-- The changes to the overrides of a group that a call asks for, if it is about them. -/
def Call.batch? (group : ParameterGroup) : Call → Option (List Change)
  | .resetOverrides scope name entries =>
      if scope = group.scope ∧ name = group.name then
        some (entries.map fun entry => .reset entry.name)
      else none
  | .modifyOverrides scope name entries =>
      if scope = group.scope ∧ name = group.name then
        some (entries.map fun entry => .write entry.name entry.value)
      else none
  | _ => none

def Event.batch? (group : ParameterGroup) (event : Event) : Option (List Change) :=
  match event.error with
  | none => event.call.batch? group
  | some _ => none

/-- The batches of changes to the overrides of a group that the calls in a log carried out. -/
def carriedOut (group : ParameterGroup) (events : List Event) : List (List Change) :=
  events.filterMap (Event.batch? group)

/-- The traits of all parameters to change are there to be read, and let them be changed. -/
def World.Allows (world : World) (group : ParameterGroup) (changes : List Change) : Prop :=
  world.service.HasPages ∧ ∀ change ∈ changes, ∃ traits,
    world.library.lookup group.scope group.family change.name = some traits ∧
      traits.isModifiable = true

namespace Pass

variable {α β : Type} {group : ParameterGroup}

/-- However a run of the pass ends, it has carried out the first batches of a plan, and all of
them if it gives a value. -/
def Carries (group : ParameterGroup) (plan : List (List Change)) (pass : Pass α) : Prop :=
  ∀ world, ∃ added rest, (runIn world pass).2.log = world.log ++ added ∧
    plan = carriedOut group added ++ rest ∧ ∀ a, (runIn world pass).1 = .ok a → rest = []

theorem Carries.split {plan : List (List Change)} {pass : Pass α}
    (hcarries : Carries group plan pass) (world : World) :
    ∃ rest, plan = carriedOut group (events world pass) ++ rest ∧
      ∀ a, (runIn world pass).1 = .ok a → rest = [] := by
  obtain ⟨added, rest, hlog, hplan, hall⟩ := hcarries world
  rw [events_of_log_eq hlog]
  exact ⟨rest, hplan, hall⟩

theorem carries_of_makes {allowed : Call → Prop} {pass : Pass α} (hmakes : Makes allowed pass)
    (hapart : ∀ c, allowed c → c.batch? group = none) : Carries group [] pass := by
  intro world
  obtain ⟨added, hlog, hallowed⟩ := hmakes world
  have hnothing : carriedOut group added = [] := by
    refine List.filterMap_eq_nil_iff.2 fun event hmem => ?_
    unfold Event.batch?
    split
    · exact hapart _ (hallowed event hmem)
    · rfl
  exact ⟨added, [], hlog, by rw [hnothing]; rfl, fun _ _ => rfl⟩

theorem carries_pure (a : α) : Carries group [] (pure a) :=
  carries_of_makes (makes_pure a) fun _ hnever => absurd hnever id

theorem carries_call {c : Call} {batch : List Change} (hbatch : c.batch? group = some batch) :
    Carries group [batch] (call c) := by
  intro world
  cases hcancelled : world.cancelled with
  | true =>
      rw [runIn_call_of_cancelled hcancelled]
      exact ⟨[], [batch], (List.append_nil _).symm, rfl, fun _ hok => by simp at hok⟩
  | false =>
      rw [runIn_call_of_active hcancelled]
      cases hanswer : (world.service.perform c).1 with
      | error e =>
          exact ⟨[.of c (some e)], [batch], rfl, rfl, fun _ hok => by simp [Except.mapError] at hok⟩
      | ok value =>
          refine ⟨[.of c none], [], rfl, ?_, fun _ _ => rfl⟩
          simp [carriedOut, Event.of, Event.batch?, hbatch]

theorem carries_bind {first second : List (List Change)} {pass : Pass α} {next : α → Pass β}
    (hpass : Carries group first pass)
    (hnext : ∀ world a middle, runIn world pass = (.ok a, middle) →
      Carries group second (next a)) :
    Carries group (first ++ second) (pass >>= next) := by
  intro world
  obtain ⟨before, left, hbefore, hfirst, hall⟩ := hpass world
  rw [runIn_bind]
  cases hrun : runIn world pass with
  | mk outcome middle =>
      rw [hrun] at hbefore hall
      cases outcome with
      | error failure =>
          -- All of the second plan is left, besides what is left of the first.
          refine ⟨before, left ++ second, hbefore, ?_, fun _ hok => by simp at hok⟩
          rw [hfirst, List.append_assoc]
      | ok a =>
          obtain ⟨later, rest, hlater, hsecond, hdone⟩ := hnext world a middle hrun middle
          refine ⟨before ++ later, rest, ?_, ?_, hdone⟩
          · simp only at hbefore ⊢
            rw [hlater, hbefore, List.append_assoc]
          · rw [hfirst, hall a rfl, List.append_nil, hsecond, carriedOut, carriedOut, carriedOut,
              List.filterMap_append, List.append_assoc]

/-- A pass that only reads carries out nothing. -/
theorem carries_read_bind {plan : List (List Change)} {pass : Pass α} {next : α → Pass β}
    (hmakes : Makes IsListing pass)
    (hnext : ∀ world a middle, runIn world pass = (.ok a, middle) → Carries group plan (next a)) :
    Carries group plan (pass >>= next) := by
  have hread : Carries group [] pass := by
    refine carries_of_makes hmakes ?_
    rintro c ⟨listing, marker, rfl⟩
    rfl
  exact carries_bind hread hnext

/-! ## Batches -/

theorem batch?_resetOverrides (group : ParameterGroup) (entries : List ParameterEntry) :
    (Call.resetOverrides group.scope group.name entries).batch? group =
      some (entries.map fun entry => .reset entry.name) :=
  if_pos ⟨rfl, rfl⟩

theorem batch?_modifyOverrides (group : ParameterGroup) (entries : List ParameterEntry) :
    (Call.modifyOverrides group.scope group.name entries).batch? group =
      some (entries.map fun entry => .write entry.name entry.value) :=
  if_pos ⟨rfl, rfl⟩

theorem carries_resetBatches (parts : List (List ParameterEntry)) :
    Carries group (parts.map (List.map fun entry => .reset entry.name))
      (resetBatches group parts) := by
  induction parts with
  | nil => exact carries_pure ()
  | cons part rest ih =>
      exact carries_bind (carries_call (batch?_resetOverrides group part)) fun _ _ _ _ => ih

theorem carries_modifyBatches (parts : List (List ParameterEntry)) :
    Carries group (parts.map (List.map fun entry => .write entry.name entry.value))
      (modifyBatches group parts) := by
  induction parts with
  | nil => exact carries_pure ()
  | cons part rest ih =>
      exact carries_bind (carries_call (batch?_modifyOverrides group part)) fun _ _ _ _ => ih

theorem carries_applyOverrides (context : Context) (group : ParameterGroup)
    (edit : Overrides.Edit) :
    Carries group (edit.batches context.settings.batchSize)
      (applyOverrides context group edit) := by
  refine carries_read_bind (makes_listings_entriesOf _ _) fun _ resets _ hresets => ?_
  refine carries_read_bind (makes_listings_entriesOf _ _) fun _ writes _ hwrites => ?_
  have hresetChanges : resets.map (fun entry => Change.reset entry.name) = edit.resetChanges := by
    have hnames := congrArg (List.map fun item => Change.reset item.1) (entriesOf_ok hresets)
    simpa [List.map_map, Overrides.Edit.resetChanges, Function.comp_def] using hnames
  have hwriteChanges : writes.map (fun entry => Change.write entry.name entry.value) =
      edit.writeChanges := by
    have hpairs := congrArg (List.map fun item => Change.write item.1 item.2) (entriesOf_ok hwrites)
    simpa [List.map_map, Overrides.Edit.writeChanges, Function.comp_def] using hpairs
  rw [Overrides.Edit.batches, ← hresetChanges, ← hwriteChanges, batches_map, batches_map]
  exact carries_bind (carries_resetBatches _) fun _ _ _ _ => carries_modifyBatches _

theorem carries_settleOverrides (context : Context) (group : ParameterGroup)
    (desired observed : Overrides) :
    Carries group ((edit desired observed).batches context.settings.batchSize)
      (settleOverrides context group desired observed) := by
  unfold settleOverrides
  split
  · rename_i hempty
    obtain ⟨hresets, hwrites⟩ :=
      List.append_eq_nil_iff.1 (Overrides.isEmpty_iff_changes.1 hempty)
    rw [Overrides.Edit.batches, hresets, hwrites]
    exact carries_pure ()
  · exact carries_applyOverrides context group _

/-! ## Passes that are not interrupted -/

variable {library : Library}

theorem yields_resetBatches (parts : List (List ParameterEntry)) :
    Yields (World.Holds library) (fun _ => True) (resetBatches group parts) := by
  induction parts with
  | nil => exact yields_pure trivial
  | cons part rest ih => exact yields_bind (yields_any_call _) fun _ _ => ih

theorem yields_modifyBatches (parts : List (List ParameterEntry)) :
    Yields (World.Holds library) (fun _ => True) (modifyBatches group parts) := by
  induction parts with
  | nil => exact yields_pure trivial
  | cons part rest ih => exact yields_bind (yields_any_call _) fun _ _ => ih

theorem yields_settleOverrides {context : Context} {desired observed : Overrides}
    (hknown : ∀ change ∈ (edit desired observed).changes, ∃ traits,
      library.lookup group.scope group.family change.name = some traits ∧
        traits.isModifiable = true) :
    Yields (World.Holds library) (fun _ => True)
      (settleOverrides context group desired observed) := by
  have hresets : ∀ item ∈ (edit desired observed).resets.entries.map fun entry =>
      (entry.1, (none : Option String)), ∃ traits,
        library.lookup group.scope group.family item.1 = some traits ∧
          traits.isModifiable = true := by
    intro item hmem
    obtain ⟨entry, hentry, rfl⟩ := List.mem_map.1 hmem
    have hchange : Change.reset entry.1 ∈ (edit desired observed).changes :=
      List.mem_append_left _ (List.mem_map.2 ⟨entry, hentry, rfl⟩)
    exact hknown _ hchange
  have hwrites : ∀ item ∈ (edit desired observed).writes.entries, ∃ traits,
      library.lookup group.scope group.family item.1 = some traits ∧
        traits.isModifiable = true := by
    intro item hmem
    have hchange : Change.write item.1 item.2 ∈ (edit desired observed).changes :=
      List.mem_append_right _ (List.mem_map.2 ⟨item, hmem, rfl⟩)
    exact hknown _ hchange
  unfold settleOverrides
  split
  · exact yields_pure trivial
  · refine yields_bind (yields_entriesOf hresets) fun _ _ => ?_
    refine yields_bind (yields_entriesOf hwrites) fun _ _ => ?_
    exact yields_bind (yields_resetBatches _) fun _ _ => yields_modifyBatches _

/-! ## Attempts -/

/-- The batches that an attempt to settle the overrides of a group carries out. -/
def attempt (context : Context) (world : World) (group : ParameterGroup)
    (desired live : Overrides) : List (List Change) :=
  carriedOut group (events world (settleOverrides context group desired live))

/-- The overrides that are live after some attempts to settle them, and the batches carried out
on the way.  Every attempt starts from what is live by then, in a world and with a batch size
of its own. -/
inductive Attempts (group : ParameterGroup) (desired start : Overrides) :
    Overrides → List (List Change) → Prop where
  | none : Attempts group desired start start []
  | again {live : Overrides} {batches : List (List Change)} (context : Context) (world : World)
      (earlier : Attempts group desired start live batches) :
      Attempts group desired start (live.after (attempt context world group desired live).flatten)
        (batches ++ attempt context world group desired live)

variable {desired start live : Overrides} {batches : List (List Change)}

/-- What an attempt leaves to be done are the batches that it did not carry out. -/
theorem changes_after_attempt (context : Context) (world : World) (group : ParameterGroup)
    (desired live : Overrides) :
    ∃ rest,
      (edit desired live).batches context.settings.batchSize =
        attempt context world group desired live ++ rest ∧
      (edit desired (live.after (attempt context world group desired live).flatten)).changes =
        rest.flatten ∧
      ((runIn world (settleOverrides context group desired live)).1 = .ok () → rest = []) := by
  obtain ⟨rest, hplan, hall⟩ := (carries_settleOverrides context group desired live).split world
  have hchanges : (edit desired live).changes =
      (attempt context world group desired live).flatten ++ rest.flatten := by
    rw [← Overrides.Edit.flatten_batches context.settings.batchSize, hplan, List.flatten_append]
    rfl
  exact ⟨rest, hplan, Overrides.changes_after hchanges, hall ()⟩

/-- What was carried out and what is left are, in this order, what there was to be done. -/
theorem Attempts.changes_eq (hattempts : Attempts group desired start live batches) :
    batches.flatten ++ (edit desired live).changes = (edit desired start).changes := by
  induction hattempts with
  | none => rfl
  | @again live batches context world earlier ih =>
      obtain ⟨rest, hplan, hleft, -⟩ := changes_after_attempt context world group desired live
      rw [hleft, ← ih, ← Overrides.Edit.flatten_batches context.settings.batchSize, hplan,
        List.flatten_append, List.flatten_append, List.append_assoc]

/-- The pass is neither refused a call nor cancelled. -/
def Uninterrupted (world : World) (pass : Pass α) : Prop :=
  ∀ failure, (runIn world pass).1 = .error failure → failure.isInterruption = false

theorem Yields.exists_ok {holds : World → Prop} {promised : α → Prop} {pass : Pass α}
    (hyields : Yields holds promised pass) {world : World} (hworld : holds world)
    (huninterrupted : Uninterrupted world pass) :
    ∃ a, (runIn world pass).1 = .ok a ∧ promised a := by
  have hend := (hyields world hworld).2
  cases houtcome : (runIn world pass).1 with
  | ok a =>
      rw [houtcome] at hend
      exact ⟨a, rfl, hend⟩
  | error failure =>
      have hnot := huninterrupted failure houtcome
      rw [houtcome] at hend
      exact absurd (hend.symm.trans hnot) (by simp)

theorem settleOverrides_ok {context : Context} {world : World}
    (hallows : world.Allows group (edit desired live).changes)
    (huninterrupted : Uninterrupted world (settleOverrides context group desired live)) :
    (runIn world (settleOverrides context group desired live)).1 = .ok () := by
  obtain ⟨hpages, hknown⟩ := hallows
  have hyields : Yields (World.Holds world.library) (fun _ => True)
      (settleOverrides context group desired live) := yields_settleOverrides hknown
  obtain ⟨_, hok, -⟩ := hyields.exists_ok ⟨rfl, hpages⟩ huninterrupted
  exact hok

/-- Attempts to settle overrides neither lose nor repeat a change.  Each carries out the first
batches of what is to be done and leaves exactly the others; one that is not interrupted
leaves the desired overrides, and no parameter was written or reset twice on the way. -/
theorem settleOverrides_resumes (group : ParameterGroup) (desired : Overrides) :
    (∀ context world live, ∃ rest,
      (edit desired live).batches context.settings.batchSize =
          attempt context world group desired live ++ rest ∧
        (edit desired (live.after (attempt context world group desired live).flatten)).changes =
          rest.flatten) ∧
      ∀ start live batches context world, Attempts group desired start live batches →
        world.Allows group (edit desired live).changes →
        Uninterrupted world (settleOverrides context group desired live) →
          (runIn world (settleOverrides context group desired live)).1 = .ok () ∧
          live.after (attempt context world group desired live).flatten = desired ∧
          (batches ++ attempt context world group desired live).flatten =
            (edit desired start).changes ∧
          ((batches ++ attempt context world group desired live).flatten.map Change.name).Nodup := by
  constructor
  · intro context world live
    obtain ⟨rest, hplan, hleft, -⟩ := changes_after_attempt context world group desired live
    exact ⟨rest, hplan, hleft⟩
  · intro start live batches context world hattempts hallows huninterrupted
    have hok := settleOverrides_ok hallows huninterrupted
    obtain ⟨rest, -, hleft, hall⟩ := changes_after_attempt context world group desired live
    have hnothing : (edit desired
        (live.after (attempt context world group desired live).flatten)).changes = [] := by
      rw [hleft, hall hok]
      rfl
    have hchanges := (hattempts.again context world).changes_eq
    rw [hnothing, List.append_nil] at hchanges
    refine ⟨hok, Overrides.eq_of_changes_nil hnothing, hchanges, ?_⟩
    rw [hchanges]
    exact Overrides.nodup_changes desired start

end Pass

def ParameterGroup.sample : ParameterGroup :=
  ⟨.dbInstance, "main", "mysql8.0"⟩

/-- One parameter to set, one to change and one to reset. -/
def Overrides.sampleDesired : Overrides :=
  Table.ofList [("sql_mode", none), ("autocommit", some "1")]

def Overrides.sampleLive : Overrides :=
  Table.ofList [("sql_mode", some ""), ("max_connections", some "50")]

/-- The service knows the three parameters and refuses the second write. -/
def World.refusingWrite : World :=
  .initial <| .memory <|
    (Memory.fresh.withListing (.defaults .dbInstance "mysql8.0")
      [⟨"autocommit", none, true, none, none⟩, ⟨"max_connections", none, true, none, none⟩,
        ⟨"sql_mode", none, true, none, none⟩]).withRefusal
      (.once "ModifyDBParameterGroup" 2) ⟨"Throttling", "slow down"⟩

def Context.changeByChange : Context :=
  ⟨{ Settings.standard with batchSize := 1 }, fun _ => none, ⟨0, 0⟩⟩

namespace Pass

/-- The first attempt comes to the refused write, the second one has only this write to do. -/
theorem three_changes_in_two_attempts :
    ∃ live batches after,
      Attempts .sample .sampleDesired .sampleLive live batches ∧
      (runIn .refusingWrite (settleOverrides .changeByChange .sample .sampleDesired
        .sampleLive)) = (.error (.api ⟨"Throttling", "slow down"⟩), after) ∧
      batches = [[.reset "max_connections"], [.write "autocommit" (some "1")]] ∧
      (edit .sampleDesired live).changes = [.write "sql_mode" none] ∧
      (runIn after (settleOverrides .changeByChange .sample .sampleDesired live)).1 = .ok () ∧
      live.after (attempt .changeByChange after .sample .sampleDesired live).flatten =
        .sampleDesired := by
  obtain ⟨after, hfirst⟩ : ∃ after, runIn .refusingWrite (settleOverrides .changeByChange .sample
      .sampleDesired .sampleLive) = (.error (.api ⟨"Throttling", "slow down"⟩), after) :=
    ⟨_, Prod.ext rfl rfl⟩
  have hafter := congrArg Prod.snd hfirst
  dsimp only at hafter
  have hbatches : attempt .changeByChange .refusingWrite .sample .sampleDesired .sampleLive =
      [[.reset "max_connections"], [.write "autocommit" (some "1")]] := by
    decide +kernel
  have hattempts : Attempts .sample .sampleDesired .sampleLive _ _ :=
    .again .changeByChange .refusingWrite .none
  rw [hbatches] at hattempts
  have hleft : (edit .sampleDesired (Overrides.sampleLive.after
      [[.reset "max_connections"], [.write "autocommit" (some "1")]].flatten)).changes =
        [.write "sql_mode" none] := by
    decide +kernel
  have hallows : after.Allows .sample [.write "sql_mode" none] := by
    rw [← hafter]
    refine ⟨Nat.succ_pos 99, fun change hmem => ⟨⟨true, true⟩, ?_, rfl⟩⟩
    rw [List.mem_singleton.1 hmem]
    decide +kernel
  have huninterrupted : Uninterrupted after (settleOverrides .changeByChange .sample
      .sampleDesired (Overrides.sampleLive.after
        [[.reset "max_connections"], [.write "autocommit" (some "1")]].flatten)) := by
    rw [← hafter]
    intro failure hfailure
    exact absurd (hfailure.symm.trans (by rfl)) (by simp : Except.error failure ≠ .ok ())
  rw [← hleft] at hallows
  obtain ⟨hok, hlive, -, -⟩ := (settleOverrides_resumes .sample .sampleDesired).2 _ _ _
    .changeByChange after hattempts hallows huninterrupted
  exact ⟨_, _, after, hattempts, hfirst, rfl, hleft, hok, hlive⟩

end Pass
end DbSteward
