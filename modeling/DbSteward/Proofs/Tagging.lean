import DbSteward.Proofs.Effect
import DbSteward.Proofs.Memory
import DbSteward.Proofs.Order

/-!
# Settling the tags of a live resource

The service in memory keeps the tags of resources, so a pass that settles them can be followed
to what is live afterwards.  A pass that goes through carries out the whole edit; one that
does not leaves the tags as they were, or without those that are no longer desired.
-/

namespace DbSteward

/-- The tags of a resource as the service has them. -/
def World.tags (world : World) (arn : String) : List Tag :=
  match world.service with
  | .memory memory => memory.tags arn
  | .unreachable => []

/-- The call does nothing to the tags of any resource. -/
def Call.SparesTags (c : Call) : Prop :=
  ∀ arn live, c.tagsAfter arn live = live

/-- Tags are spared by every sort of call that neither of the two for tags is of. -/
theorem Call.sparesTags_of_sort {sort : Call → Bool} {c : Call} (hc : sort c = true)
    (hadd : ∀ arn tags, sort (.addTags arn tags) = false)
    (hremove : ∀ arn keys, sort (.removeTags arn keys) = false) : c.SparesTags := by
  intro arn live
  cases c with
  | addTags other tags => simp [hadd] at hc
  | removeTags other keys => simp [hremove] at hc
  | _ => rfl

theorem Call.sparesTags_of_quiet {c : Call} (hquiet : c.isMutating = false) : c.SparesTags := by
  intro arn live
  cases c with
  | addTags other tags => simp [Call.isMutating, Call.category] at hquiet
  | removeTags other keys => simp [Call.isMutating, Call.category] at hquiet
  | _ => rfl

/-- The tags of a resource after a call that was made, unless it was refused. -/
def Event.tagsAfter (arn : String) (live : List Tag) (event : Event) : List Tag :=
  match event.error with
  | none => event.call.tagsAfter arn live
  | some _ => live

namespace Pass

variable {α : Type} {world after : World} {arn : String} {failure : Failure}

/-- What a call did to the tags can be told from its record. -/
theorem tags_afterCall (world : World) (c : Call) (arn : String) :
    (afterCall world c (world.service.perform c).1 (world.service.perform c).2).tags arn =
      (Event.of c (refusalOf (world.service.perform c).1)).tagsAfter arn (world.tags arn) := by
  cases hservice : world.service with
  | unreachable =>
      simp [World.tags, afterCall, hservice, Service.perform, Event.tagsAfter, Event.of, refusalOf]
  | memory memory =>
      simp only [World.tags, afterCall, hservice, Service.perform]
      cases hperform : (memory.perform c).1 with
      | error e => exact congrFun (Memory.tags_perform_of_error hperform) arn
      | ok value => exact Memory.tags_perform_of_ok hperform arn

theorem tags_call_of_error {c : Call} (hrun : runIn world (call c) = (.error failure, after)) :
    after.tags arn = world.tags arn := by
  cases hcancelled : world.cancelled with
  | true =>
      rw [runIn_call_of_cancelled hcancelled] at hrun
      obtain ⟨-, rfl⟩ := Prod.mk.inj hrun
      rfl
  | false =>
      rw [runIn_call_of_active hcancelled] at hrun
      obtain ⟨hanswer, rfl⟩ := Prod.mk.inj hrun
      rw [tags_afterCall]
      cases hperform : (world.service.perform c).1 with
      | ok value => simp [hperform, Except.mapError] at hanswer
      | error e => rfl

theorem tags_call_of_ok {c : Call} {value : c.Answer}
    (hrun : runIn world (call c) = (.ok value, after)) :
    after.tags arn = c.tagsAfter arn (world.tags arn) := by
  obtain ⟨-, hanswer, rfl⟩ := runIn_call_eq_ok hrun
  rw [tags_afterCall, hanswer]
  rfl

/-! ## The two calls -/

theorem tags_removeTags_of_ok {keys : List String}
    (hrun : runIn world (removeTags arn keys) = (.ok (), after)) :
    after.tags arn = Tag.removeAll (world.tags arn) keys := by
  unfold removeTags at hrun
  split at hrun
  · rename_i hnone
    obtain ⟨-, rfl⟩ := Prod.mk.inj hrun
    simp [List.isEmpty_iff.1 hnone, Tag.removeAll]
  · rw [tags_call_of_ok hrun, Call.tagsAfter, if_pos rfl]

theorem tags_addTags_of_ok {tags : List Tag}
    (hrun : runIn world (addTags arn tags) = (.ok (), after)) :
    after.tags arn = Tag.writeAll (world.tags arn) tags := by
  unfold addTags at hrun
  split at hrun
  · rename_i hnone
    obtain ⟨-, rfl⟩ := Prod.mk.inj hrun
    rw [List.isEmpty_iff.1 hnone]
    rfl
  · rw [tags_call_of_ok hrun, Call.tagsAfter, if_pos rfl]

theorem tags_removeTags_of_error {keys : List String}
    (hrun : runIn world (removeTags arn keys) = (.error failure, after)) :
    after.tags arn = world.tags arn := by
  unfold removeTags at hrun
  split at hrun
  · simp at hrun
  · exact tags_call_of_error hrun

theorem tags_addTags_of_error {tags : List Tag}
    (hrun : runIn world (addTags arn tags) = (.error failure, after)) :
    after.tags arn = world.tags arn := by
  unfold addTags at hrun
  split at hrun
  · simp at hrun
  · exact tags_call_of_error hrun

/-! ## Settling -/

variable {desired : List Tag}

theorem tags_settleTags_of_ok
    (hrun : runIn world (settleTags arn desired (world.tags arn)) = (.ok (), after)) :
    after.tags arn = Tag.afterEdit desired (world.tags arn) := by
  obtain ⟨done, middle, hremove, hadd⟩ := runIn_bind_eq_ok hrun
  rw [tags_addTags_of_ok hadd, tags_removeTags_of_ok hremove, Tag.afterEdit]

theorem tags_settleTags_of_error
    (hrun : runIn world (settleTags arn desired (world.tags arn)) = (.error failure, after)) :
    after.tags arn = world.tags arn ∨
      after.tags arn = Tag.removeAll (world.tags arn)
        (Tag.edit desired (world.tags arn)).removals := by
  rcases runIn_bind_eq_error hrun with hremove | ⟨done, middle, hremove, hadd⟩
  · exact .inl (tags_removeTags_of_error hremove)
  · exact .inr (by rw [tags_addTags_of_error hadd, tags_removeTags_of_ok hremove])

/-! ## Whole passes -/

end Pass

theorem Dialogue.tags_runIn {α : Type} (dialogue : Dialogue α) (world : World) (arn : String) :
    ∃ made, (dialogue.runIn world).2.log = world.log ++ made ∧
      (dialogue.runIn world).2.tags arn = made.foldl (Event.tagsAfter arn) (world.tags arn) := by
  -- What is asked is one event; what follows runs in the world that its answer left.
  induction dialogue generalizing world with
  | done outcome remembered => exact ⟨[], (List.append_nil _).symm, rfl⟩
  | ask remembered c next ih =>
      cases hcancelled : world.cancelled with
      | true =>
          rw [runIn_ask_of_cancelled hcancelled]
          exact ⟨[], (List.append_nil _).symm, rfl⟩
      | false =>
          rw [runIn_ask_of_active hcancelled]
          obtain ⟨made, hlog, htags⟩ := ih (world.service.perform c).1
            { Pass.afterCall world c (world.service.perform c).1 (world.service.perform c).2 with
              remembered := remembered }
          refine ⟨.of c (refusalOf (world.service.perform c).1) :: made, ?_, ?_⟩
          · rw [hlog, Pass.log_afterCall, List.append_assoc]
            rfl
          · rw [htags, List.foldl_cons, ← Pass.tags_afterCall world c arn]
            rfl

namespace Pass

variable {α : Type} {kind : Kind} {world after : World} {arn : String} {desired : List Tag}

/-- The tags that a pass leaves can be told from the calls that it made. -/
theorem IsDialogue.tags_eq {pass : Pass α} (hpass : IsDialogue pass) (world : World)
    (arn : String) :
    (runIn world pass).2.tags arn =
      (events world pass).foldl (Event.tagsAfter arn) (world.tags arn) := by
  obtain ⟨dialogue, hdialogue⟩ := hpass world.service.listingSize
  obtain ⟨made, hlog, htags⟩ := (dialogue world.remembered).tags_runIn world arn
  rw [← hdialogue.runIn_eq world rfl] at hlog htags
  rw [htags, events_of_log_eq hlog]

theorem tagsAfter_granted_editCalls (arn : String) (edit : Tag.Edit) (live : List Tag) :
    (granted (editCalls arn edit)).foldl (Event.tagsAfter arn) live =
      Tag.writeAll (Tag.removeAll live edit.removals) edit.writes := by
  unfold editCalls
  cases hremovals : edit.removals <;> cases hwrites : edit.writes <;>
    simp [granted, Event.tagsAfter, Event.of, Call.tagsAfter, Tag.removeAll, Tag.writeAll]

theorem tagsAfter_of_sparesTags {made : List Event}
    (hspares : ∀ event ∈ made, event.call.SparesTags) (arn : String) (live : List Tag) :
    made.foldl (Event.tagsAfter arn) live = live := by
  induction made generalizing live with
  | nil => rfl
  | cons event rest ih =>
      obtain ⟨hevent, hrest⟩ := List.forall_mem_cons.1 hspares
      have hsame : event.tagsAfter arn live = live := by
        unfold Event.tagsAfter
        split
        · exact hevent arn live
        · rfl
      rw [List.foldl_cons, hsame, ih hrest]

/-- No call that comes after those for the tags does anything to tags. -/
theorem makes_afterTags_sparing (context : Context) (arn : String)
    (desired observed : Document kind) (changes : Changes) :
    Makes Call.SparesTags (afterTags kind context arn desired observed changes) := by
  refine (speaks_afterTags context arn desired observed changes).makes_of_mem
    (fun _ => Call.sparesTags_of_quiet) ?_
  cases kind with
  | parameterGroup scope =>
      refine forall_mem_mul (fun cs hresets c h => ?_) fun cs hwrites c h => ?_
      · exact Call.sparesTags_of_sort (hresets c h) (fun _ _ => rfl) fun _ _ => rfl
      · exact Call.sparesTags_of_sort (hwrites c h) (fun _ _ => rfl) fun _ _ => rfl
  | _ =>
      refine forall_mem_mul (fun cs hreplication c h => ?_) fun cs hmodification c h => ?_
      · exact Call.sparesTags_of_sort (hreplication.2 c h) (fun _ _ => rfl) fun _ _ => rfl
      · exact Call.sparesTags_of_sort (hmodification.2 c h) (fun _ _ => rfl) fun _ _ => rfl

theorem editCalls_mem (arn : String) (edit : Tag.Edit) :
    editCalls arn edit ∈ atMostOne Call.isTagRemoval * atMostOne Call.isTagAddition := by
  refine Language.append_mem_mul ?_ ?_
  · split
    · exact nil_mem_atMostOne _
    · exact ⟨le_rfl, by simp [Call.isTagRemoval]⟩
  · split
    · exact nil_mem_atMostOne _
    · exact ⟨le_rfl, by simp [Call.isTagAddition]⟩

/-- What the tags can become while attempts to settle them fail, each of which started from
the tags that were live by then. -/
inductive FailedAttempts (arn : String) (desired start : List Tag) : List Tag → Prop where
  | none : FailedAttempts arn desired start start
  | again {world after : World} {failure : Failure}
      (earlier : FailedAttempts arn desired start (world.tags arn))
      (hrun : runIn world (settleTags arn desired (world.tags arn)) = (.error failure, after)) :
      FailedAttempts arn desired start (after.tags arn)

theorem FailedAttempts.distinctKeys {start live : List Tag}
    (hattempts : FailedAttempts arn desired start live) (hstart : Tag.DistinctKeys start) :
    Tag.DistinctKeys live := by
  -- An attempt that failed added no tag, so no key can be there twice.
  induction hattempts with
  | none => exact hstart
  | again earlier hrun ih =>
      rcases tags_settleTags_of_error hrun with hsame | hremoved
      · rw [hsame]
        exact ih
      · rw [hremoved]
        exact ih.kept _

/-- Settling tags that goes through leaves the desired keys, each once, and the desired values
unless two of them are desired under one key.  Attempts that failed before do no harm. -/
theorem settleTags_converges (arn : String) (desired : List Tag) :
    (∀ world after, Tag.DistinctKeys (world.tags arn) →
      runIn world (settleTags arn desired (world.tags arn)) = (.ok (), after) →
        calls world (settleTags arn desired (world.tags arn)) ∈
            atMostOne Call.isTagRemoval * atMostOne Call.isTagAddition ∧
          Tag.DistinctKeys (after.tags arn) ∧
          (∀ key, key ∈ (after.tags arn).map Tag.key ↔ key ∈ desired.map Tag.key) ∧
          (Tag.settled desired (after.tags arn) = true ↔ Tag.Consistent desired)) ∧
      (Tag.Consistent desired → ∀ start world after, Tag.DistinctKeys start →
        FailedAttempts arn desired start (world.tags arn) →
        runIn world (settleTags arn desired (world.tags arn)) = (.ok (), after) →
          Tag.settled desired (after.tags arn) = true) := by
  constructor
  · intro world after hlive hrun
    rw [calls_settleTags_of_ok hrun, tags_settleTags_of_ok hrun]
    exact ⟨editCalls_mem arn _, hlive.afterEdit, fun key => Tag.mem_keys_afterEdit_iff hlive,
      Tag.settled_afterEdit_iff hlive⟩
  · intro hconsistent start world after hstart hattempts hrun
    rw [tags_settleTags_of_ok hrun]
    exact (Tag.settled_afterEdit_iff (hattempts.distinctKeys hstart)).2 hconsistent

/-- A service with two tags on a resource that refuses the first addition of tags. -/
def World.refusingAddition : World :=
  .initial <| .memory <|
    (Memory.fresh.withTags "arn:main" [⟨"old", none⟩, ⟨"team", some "b"⟩]).withRefusal
      (.once "AddTagsToResource" 1) ⟨"Throttling", "slow down"⟩

/-- A key that is desired twice, once with no value and once with an empty one, settles after an
attempt that got no further than the removal. -/
theorem doubled_key_converges :
    ∃ middle after,
      runIn World.refusingAddition (settleTags "arn:main" [⟨"zone", none⟩, ⟨"zone", some ""⟩]
        (World.refusingAddition.tags "arn:main")) =
          (.error (.api ⟨"Throttling", "slow down"⟩), middle) ∧
      runIn middle (settleTags "arn:main" [⟨"zone", none⟩, ⟨"zone", some ""⟩]
        (middle.tags "arn:main")) = (.ok (), after) ∧
      Tag.DistinctKeys (after.tags "arn:main") ∧
      Tag.settled [⟨"zone", none⟩, ⟨"zone", some ""⟩] (after.tags "arn:main") = true := by
  have hstart : Tag.DistinctKeys (World.refusingAddition.tags "arn:main") := by decide
  obtain ⟨middle, hfirst⟩ : ∃ middle, runIn World.refusingAddition (settleTags "arn:main"
      [⟨"zone", none⟩, ⟨"zone", some ""⟩] (World.refusingAddition.tags "arn:main")) =
        (.error (.api ⟨"Throttling", "slow down"⟩), middle) := ⟨_, Prod.ext rfl rfl⟩
  have hattempted : FailedAttempts "arn:main" [⟨"zone", none⟩, ⟨"zone", some ""⟩]
      (World.refusingAddition.tags "arn:main") (middle.tags "arn:main") := .again .none hfirst
  obtain ⟨after, hsecond⟩ : ∃ after, runIn middle (settleTags "arn:main"
      [⟨"zone", none⟩, ⟨"zone", some ""⟩] (middle.tags "arn:main")) = (.ok (), after) := by
    have hmiddle := congrArg Prod.snd hfirst
    dsimp only at hmiddle
    rw [← hmiddle]
    exact ⟨_, Prod.ext rfl rfl⟩
  obtain ⟨hgoes, hconverges⟩ := settleTags_converges "arn:main"
    [⟨"zone", none⟩, ⟨"zone", some ""⟩]
  refine ⟨middle, after, hfirst, hsecond, ?_, ?_⟩
  · exact (hgoes middle after (hattempted.distinctKeys hstart) hsecond).2.1
  · exact hconverges (by decide) _ middle after hstart hattempted hsecond

end Pass
end DbSteward
