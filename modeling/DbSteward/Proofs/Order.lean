import DbSteward.Proofs.Dialogue
import Mathlib.Computability.Language

/-!
# The order of the calls that change something

A pass removes tags, adds tags, and only then turns to what is particular to the kind of the
resource.  The calls that change something form a word of a language that is the product of
these phases; calls that only read may come anywhere in between.
-/

namespace DbSteward

namespace Call

def isTagRemoval : Call → Bool
  | .removeTags _ _ => true
  | _ => false

def isTagAddition : Call → Bool
  | .addTags _ _ => true
  | _ => false

def isReset : Call → Bool
  | .resetOverrides _ _ _ => true
  | _ => false

def isWrite : Call → Bool
  | .modifyOverrides _ _ _ => true
  | _ => false

def isReplication : Call → Bool
  | .startReplication _ _ => true
  | .stopReplication _ _ => true
  | _ => false

end Call

/-- Any number of calls of one sort. -/
def anyNumber (sort : Call → Bool) : Language Call :=
  {cs | ∀ c ∈ cs, sort c = true}

def atMostOne (sort : Call → Bool) : Language Call :=
  {cs | cs.length ≤ 1 ∧ ∀ c ∈ cs, sort c = true}

namespace Kind

/-- The call modifies resources of this kind as a whole. -/
def isModification : Kind → Call → Bool
  | .dbCluster, .modifyCluster _ => true
  | .dbInstance, .modifyInstance _ => true
  | .subnetGroup, .modifySubnetGroup _ => true
  | _, _ => false

/-- What follows the calls for the tags. -/
def ownMutations : Kind → Language Call
  | .parameterGroup _ => anyNumber Call.isReset * anyNumber Call.isWrite
  | kind => atMostOne Call.isReplication * atMostOne kind.isModification

/-- The words that the mutating calls of a pass may form. -/
def mutations (kind : Kind) : Language Call :=
  atMostOne Call.isTagRemoval * atMostOne Call.isTagAddition * kind.ownMutations

end Kind

theorem nil_mem_anyNumber (sort : Call → Bool) : [] ∈ anyNumber sort := by
  intro c hmem
  simp at hmem

theorem nil_mem_atMostOne (sort : Call → Bool) : [] ∈ atMostOne sort :=
  ⟨Nat.zero_le 1, nil_mem_anyNumber sort⟩

theorem nil_mem_mul {first second : Language Call} (hfirst : [] ∈ first)
    (hsecond : [] ∈ second) : [] ∈ first * second :=
  Language.mem_mul.2 ⟨[], hfirst, [], hsecond, rfl⟩

/-- What holds of all letters of two languages holds of those of their product. -/
theorem forall_mem_mul {first second : Language Call} {holds : Call → Prop}
    (hfirst : ∀ cs ∈ first, ∀ c ∈ cs, holds c) (hsecond : ∀ cs ∈ second, ∀ c ∈ cs, holds c) :
    ∀ cs ∈ first * second, ∀ c ∈ cs, holds c := by
  intro cs hword c hmem
  obtain ⟨before, hbefore, after, hafter, rfl⟩ := Language.mem_mul.1 hword
  rcases List.mem_append.1 hmem with h | h
  · exact hfirst before hbefore c h
  · exact hsecond after hafter c h

namespace Pass

variable {α β : Type} {kind : Kind} {first second language : Language Call}

/-- In every world the mutating calls of the pass form a word of the language. -/
def Speaks (language : Language Call) (pass : Pass α) : Prop :=
  ∀ world, ∃ events, (runIn world pass).2.log = world.log ++ events ∧
    (events.map Event.call).filter Call.isMutating ∈ language

theorem Speaks.mem {pass : Pass α} (hspeaks : Speaks language pass) (world : World) :
    (calls world pass).filter Call.isMutating ∈ language := by
  obtain ⟨events, hlog, hword⟩ := hspeaks world
  rw [calls_of_log_eq hlog]
  exact hword

theorem Speaks.makes {pass : Pass α} (hspeaks : Speaks language pass) :
    Makes (fun _ => True) pass := by
  intro world
  obtain ⟨events, hlog, -⟩ := hspeaks world
  exact ⟨events, hlog, fun _ _ => trivial⟩

/-- A call of the pass only reads, or it stands in a word of the language. -/
theorem Speaks.makes_of_mem {allowed : Call → Prop} {pass : Pass α}
    (hspeaks : Speaks language pass) (hquiet : ∀ c, c.isMutating = false → allowed c)
    (hword : ∀ cs ∈ language, ∀ c ∈ cs, allowed c) : Makes allowed pass := by
  intro world
  obtain ⟨events, hlog, hmem⟩ := hspeaks world
  refine ⟨events, hlog, fun event hevent => ?_⟩
  cases hmutating : event.call.isMutating with
  | false => exact hquiet _ hmutating
  | true => exact hword _ hmem _ (List.mem_filter.2 ⟨List.mem_map_of_mem hevent, hmutating⟩)

theorem Speaks.of_log_eq {pass : Pass α} {other : Pass β} (hspeaks : Speaks language pass)
    (hlog : ∀ world, (runIn world other).2.log = (runIn world pass).2.log) :
    Speaks language other := by
  intro world
  rw [hlog]
  exact hspeaks world

/-! ## Rules by the shape of the pass -/

theorem speaks_of_makes {sort : Call → Prop} {pass : Pass α} (hmakes : Makes sort pass)
    (hquiet : ∀ c, sort c → c.isMutating = false) (hnil : [] ∈ language) :
    Speaks language pass := by
  intro world
  obtain ⟨events, hlog, hsort⟩ := hmakes world
  have hnone : (events.map Event.call).filter Call.isMutating = [] := by
    refine List.filter_eq_nil_iff.2 fun c hmem => ?_
    obtain ⟨event, hevent, rfl⟩ := List.mem_map.1 hmem
    simp [hquiet _ (hsort event hevent)]
  exact ⟨events, hlog, hnone ▸ hnil⟩

theorem speaks_pure (hnil : [] ∈ language) (a : α) : Speaks language (pure a : Pass α) :=
  speaks_of_makes (makes_pure a) (fun _ hnever => absurd hnever id) hnil

theorem speaks_call {sort : Call → Bool} {c : Call} {category : Category} {operation : String}
    (hc : sort c = true) : Speaks (atMostOne sort) (call c category operation) := by
  intro world
  cases hcancelled : world.cancelled with
  | true =>
      refine ⟨[], ?_, nil_mem_atMostOne sort⟩
      rw [runIn_call_of_cancelled hcancelled, List.append_nil]
  | false =>
      rw [runIn_call_of_active hcancelled]
      refine ⟨_, rfl, ?_, ?_⟩
      · exact (List.length_filter_le _ _).trans (by simp)
      · intro other hmem
        obtain rfl : other = c := by simpa using (List.mem_filter.1 hmem).1
        exact hc

theorem speaks_bind {pass : Pass α} {next : α → Pass β} (hpass : Speaks first pass)
    (hnext : ∀ a, Speaks second (next a)) (hnil : [] ∈ second) :
    Speaks (first * second) (pass >>= next) := by
  intro world
  obtain ⟨before, hbefore, hfirst⟩ := hpass world
  rw [runIn_bind]
  cases hrun : runIn world pass with
  | mk outcome middle =>
      rw [hrun] at hbefore
      cases outcome with
      | error failure =>
          -- The second pass is not reached and adds the empty word.
          exact ⟨before, hbefore, Language.mem_mul.2 ⟨_, hfirst, [], hnil, List.append_nil _⟩⟩
      | ok a =>
          obtain ⟨after, hafter, hsecond⟩ := hnext a middle
          refine ⟨before ++ after, ?_, ?_⟩
          · simp only at hbefore ⊢
            rw [hafter, hbefore, List.append_assoc]
          · rw [List.map_append, List.filter_append]
            exact Language.append_mem_mul hfirst hsecond

/-- A pass that changes nothing adds no letter to what comes after it. -/
theorem speaks_quiet_bind {sort : Call → Prop} {pass : Pass α} {next : α → Pass β}
    (hmakes : Makes sort pass) (hquiet : ∀ c, sort c → c.isMutating = false)
    (hnext : ∀ a, Speaks language (next a)) (hnil : [] ∈ language) :
    Speaks language (pass >>= next) := by
  have hpass : Speaks 1 pass := speaks_of_makes hmakes hquiet Language.nil_mem_one
  simpa using speaks_bind hpass hnext hnil

theorem speaks_liftExcept_bind {outcome : Except Failure α} {next : α → Pass β}
    (hnext : ∀ a, Speaks language (next a)) (hnil : [] ∈ language) :
    Speaks language (liftExcept outcome >>= next) :=
  speaks_quiet_bind (makes_liftExcept outcome) (fun _ hnever => absurd hnever id) hnext hnil

theorem speaks_then_pure {pass : Pass α} (hpass : Speaks language pass) (b : β) :
    Speaks language (pass >>= fun _ => pure b) := by
  have hlast : ∀ a : α, Speaks 1 ((fun _ => pure b : α → Pass β) a) :=
    fun _ => speaks_pure Language.nil_mem_one b
  simpa using speaks_bind hpass hlast Language.nil_mem_one

/-- What every modify call looks like: a request is built, sent and answered. -/
theorem speaks_send {ρ : Type} {sort : Call → Bool} {toCall : ρ → Call}
    (hsort : ∀ r, sort (toCall r) = true) (request : Except Failure ρ) (a : α) :
    Speaks (atMostOne sort)
      (liftExcept request >>= fun r => call (toCall r) >>= fun _ => pure a) :=
  speaks_liftExcept_bind (fun r => speaks_then_pure (speaks_call (hsort r)) a)
    (nil_mem_atMostOne sort)

theorem speaks_any_of_makes {sort : Call → Bool} {pass : Pass α}
    (hmakes : Makes (fun c => sort c = true) pass) : Speaks (anyNumber sort) pass := by
  intro world
  obtain ⟨events, hlog, hsort⟩ := hmakes world
  refine ⟨events, hlog, fun c hmem => ?_⟩
  obtain ⟨event, hevent, rfl⟩ := List.mem_map.1 (List.mem_filter.1 hmem).1
  exact hsort event hevent

/-! ## Tags -/

theorem speaks_settleTags (arn : String) (desired observed : List Tag) :
    Speaks (atMostOne Call.isTagRemoval * atMostOne Call.isTagAddition)
      (settleTags arn desired observed) := by
  refine speaks_bind ?_ (fun _ => ?_) (nil_mem_atMostOne _)
  · unfold removeTags
    split
    · exact speaks_pure (nil_mem_atMostOne _) ()
    · exact speaks_call rfl
  · unfold addTags
    split
    · exact speaks_pure (nil_mem_atMostOne _) ()
    · exact speaks_call rfl

theorem speaks_updateTags (arn : String) (desired observed : Document kind)
    (changes : Changes) :
    Speaks (atMostOne Call.isTagRemoval * atMostOne Call.isTagAddition)
      (updateTags arn desired observed changes) := by
  unfold updateTags
  split
  · exact speaks_settleTags _ _ _
  · exact speaks_pure (nil_mem_mul (nil_mem_atMostOne _) (nil_mem_atMostOne _)) ()

/-! ## Overrides -/

theorem makes_resetBatches (group : ParameterGroup) (parts : List (List ParameterEntry)) :
    Makes (fun c => c.isReset = true) (resetBatches group parts) := by
  induction parts with
  | nil => exact makes_pure ()
  | cons part rest ih => exact makes_bind (makes_call rfl) fun _ => ih

theorem makes_modifyBatches (group : ParameterGroup) (parts : List (List ParameterEntry)) :
    Makes (fun c => c.isWrite = true) (modifyBatches group parts) := by
  induction parts with
  | nil => exact makes_pure ()
  | cons part rest ih => exact makes_bind (makes_call rfl) fun _ => ih

theorem nil_mem_resetsWrites : [] ∈ anyNumber Call.isReset * anyNumber Call.isWrite :=
  nil_mem_mul (nil_mem_anyNumber _) (nil_mem_anyNumber _)

theorem speaks_settleOverrides (context : Context) (group : ParameterGroup)
    (desired observed : Overrides) :
    Speaks (anyNumber Call.isReset * anyNumber Call.isWrite)
      (settleOverrides context group desired observed) := by
  unfold settleOverrides
  split
  · exact speaks_pure nil_mem_resetsWrites ()
  · have hbatches : ∀ resets writes : List ParameterEntry,
        Speaks (anyNumber Call.isReset * anyNumber Call.isWrite) (do
          resetBatches group (batches context.settings.batchSize resets)
          modifyBatches group (batches context.settings.batchSize writes)) := fun _ _ =>
      speaks_bind (speaks_any_of_makes (makes_resetBatches _ _))
        (fun _ => speaks_any_of_makes (makes_modifyBatches _ _)) (nil_mem_anyNumber _)
    refine speaks_quiet_bind (makes_listings_entriesOf _ _) (fun _ => IsListing.quiet)
      (fun resets => ?_) nil_mem_resetsWrites
    exact speaks_quiet_bind (makes_listings_entriesOf _ _) (fun _ => IsListing.quiet)
      (hbatches resets) nil_mem_resetsWrites

/-! ## Updates -/

theorem speaks_takeStep (settings : Settings) (step : Replication.Step) :
    Speaks (atMostOne Call.isReplication) (takeStep settings step) := by
  cases step with
  | nothing => exact speaks_pure (nil_mem_atMostOne _) _
  | wait reason => exact speaks_pure (nil_mem_atMostOne _) _
  | start region request =>
      have hcall : Speaks (atMostOne Call.isReplication)
          (call (.startReplication (some region) request) .update
            "StartDBInstanceAutomatedBackupsReplication") := speaks_call rfl
      exact speaks_then_pure
        (hcall.of_log_eq fun world => by rw [runIn_unlessMentioned]) _
  | stop region source =>
      have hcall : Speaks (atMostOne Call.isReplication)
          (call (.stopReplication (some region) source) .update
            "StopDBInstanceAutomatedBackupsReplication") := speaks_call rfl
      exact speaks_then_pure
        (hcall.of_log_eq fun world => by rw [runIn_unlessMentioned]) _

theorem nil_mem_ownMutations (kind : Kind) : [] ∈ kind.ownMutations := by
  cases kind with
  | parameterGroup scope => exact nil_mem_resetsWrites
  | _ => exact nil_mem_mul (nil_mem_atMostOne _) (nil_mem_atMostOne _)

theorem nil_mem_mutations (kind : Kind) : [] ∈ kind.mutations :=
  nil_mem_mul (nil_mem_mul (nil_mem_atMostOne _) (nil_mem_atMostOne _))
    (nil_mem_ownMutations kind)

theorem speaks_without_replication {sort : Call → Bool} {pass : Pass α}
    (hpass : Speaks (atMostOne sort) pass) :
    Speaks (atMostOne Call.isReplication * atMostOne sort) pass := by
  intro world
  obtain ⟨events, hlog, hword⟩ := hpass world
  exact ⟨events, hlog, Language.mem_mul.2 ⟨[], nil_mem_atMostOne _, _, hword, rfl⟩⟩

/-- Every update needs a resource name, settles the tags and goes on with its own calls. -/
theorem speaks_tags_first {arn : Except Failure String} {desired observed : Document kind}
    {changes : Changes} {own : String → Pass α}
    (hown : ∀ arn, Speaks kind.ownMutations (own arn)) :
    Speaks kind.mutations (do
      let arn ← liftExcept arn
      updateTags arn desired observed changes
      own arn) := by
  refine speaks_liftExcept_bind (fun arn => ?_) (nil_mem_mutations kind)
  exact speaks_bind (speaks_updateTags _ _ _ _) (fun _ => hown arn) (nil_mem_ownMutations kind)

theorem speaks_finishInstance (context : Context) (desired observed : Document .dbInstance)
    (changes : Changes) :
    Speaks (atMostOne (Kind.isModification .dbInstance))
      (finishInstance context desired observed changes) := by
  unfold finishInstance
  split
  · exact speaks_send (fun _ => rfl) _ _
  · split
    · exact speaks_pure (nil_mem_atMostOne _) _
    · exact speaks_pure (nil_mem_atMostOne _) _

theorem speaks_afterTags (context : Context) (arn : String) (desired observed : Document kind)
    (changes : Changes) :
    Speaks kind.ownMutations (afterTags kind context arn desired observed changes) := by
  cases kind with
  | dbInstance =>
      have hreplication : Speaks (atMostOne Call.isReplication)
          (settleReplication context.settings (replicationIntent desired)
            (replicationObservation arn observed)) :=
        speaks_liftExcept_bind (fun step => speaks_takeStep _ step) (nil_mem_atMostOne _)
      refine speaks_bind hreplication (fun decision => ?_) (nil_mem_atMostOne _)
      cases decision with
      | retryAfter after reason => exact speaks_pure (nil_mem_atMostOne _) _
      | proceed => exact speaks_finishInstance context desired observed changes
      | failTerminal reason => exact speaks_finishInstance context desired observed changes
  | dbCluster =>
      rw [afterTags]
      refine speaks_without_replication ?_
      split
      · exact speaks_send (fun _ => rfl) _ _
      · exact speaks_pure (nil_mem_atMostOne _) _
  | parameterGroup scope =>
      refine speaks_then_pure ?_ _
      unfold updateOverrides
      split
      · exact speaks_liftExcept_bind (fun group => speaks_settleOverrides _ _ _ _)
          nil_mem_resetsWrites
      · exact speaks_pure nil_mem_resetsWrites ()
  | subnetGroup =>
      rw [afterTags]
      refine speaks_without_replication ?_
      split
      · exact speaks_send (fun _ => rfl) _ _
      · exact speaks_pure (nil_mem_atMostOne _) _
  | snapshot scope => exact speaks_without_replication (speaks_pure (nil_mem_atMostOne _) _)

theorem speaks_update (context : Context) (desired observed : Document kind)
    (changes : Changes) : Speaks kind.mutations (update kind context desired observed changes) := by
  rw [update_eq_tags_first]
  exact speaks_tags_first fun arn => speaks_afterTags context arn desired observed changes

theorem speaks_settle (context : Context) (desired observed : Document kind) :
    Speaks kind.mutations (settle context desired observed) := by
  unfold settle follow
  cases (Plan.of context.settings desired observed).decision with
  | failTerminal reason => exact speaks_pure (nil_mem_mutations kind) _
  | retryAfter after reason => exact speaks_pure (nil_mem_mutations kind) _
  | proceed =>
      simp only
      unfold proceed
      split
      · exact speaks_pure (nil_mem_mutations kind) _
      · exact (speaks_update context _ _ _).of_log_eq fun world => by rw [runIn_orAbandon]

end Pass
end DbSteward
