import DbSteward.Service.Basic

/-!
# What a call does to a service in memory

Whatever the call and whatever the answer, the service remembers the call, and apart from that
only the tags may be different afterwards.
-/

namespace DbSteward

/-- The tags of a resource after a call that was answered. -/
def Call.tagsAfter (arn : String) (live : List Tag) : Call → List Tag
  | .addTags other tags => if arn = other then Tag.writeAll live tags else live
  | .removeTags other keys => if arn = other then Tag.removeAll live keys else live
  | _ => live

namespace Memory

theorem exists_tags_perform (memory : Memory) (c : Call) :
    ∃ tags, (memory.perform c).2 =
      { memory with calls := memory.calls ++ [c], tags := tags } := by
  unfold perform
  cases memory.refusal? c with
  | some e => exact ⟨memory.tags, rfl⟩
  | none => cases c <;> exact ⟨_, rfl⟩

theorem calls_perform (memory : Memory) (c : Call) :
    (memory.perform c).2.calls = memory.calls ++ [c] := by
  obtain ⟨tags, hafter⟩ := memory.exists_tags_perform c
  rw [hafter]

theorem listings_perform (memory : Memory) (c : Call) :
    (memory.perform c).2.listings = memory.listings := by
  obtain ⟨tags, hafter⟩ := memory.exists_tags_perform c
  rw [hafter]

theorem pageSize_perform (memory : Memory) (c : Call) :
    (memory.perform c).2.pageSize = memory.pageSize := by
  obtain ⟨tags, hafter⟩ := memory.exists_tags_perform c
  rw [hafter]

theorem count_perform (memory : Memory) (c : Call) (operation : String) :
    (memory.perform c).2.count operation =
      memory.count operation + if c.operation == operation then 1 else 0 := by
  rw [count, calls_perform, List.countP_append, List.countP_singleton]
  rfl

theorem tags_perform_of_error {memory : Memory} {c : Call} {e : ApiError}
    (hanswer : (memory.perform c).1 = .error e) :
    (memory.perform c).2.tags = memory.tags := by
  unfold perform at hanswer ⊢
  cases hrefusal : memory.refusal? c with
  | some refusal => rfl
  | none =>
      simp only [hrefusal] at hanswer
      cases c with
      | addTags arn tags => simp [answer] at hanswer
      | removeTags arn keys => simp [answer] at hanswer
      | _ => rfl

theorem tags_perform_of_ok {memory : Memory} {c : Call} {value : c.Answer}
    (hanswer : (memory.perform c).1 = .ok value) (arn : String) :
    (memory.perform c).2.tags arn = c.tagsAfter arn (memory.tags arn) := by
  unfold perform at hanswer ⊢
  cases hrefusal : memory.refusal? c with
  | some refusal => simp [hrefusal] at hanswer
  | none =>
      cases c with
      | addTags other tags =>
          by_cases harn : arn = other <;> simp [answer, withTags, Call.tagsAfter, harn]
      | removeTags other keys =>
          by_cases harn : arn = other <;> simp [answer, withTags, Call.tagsAfter, harn]
      | _ => rfl

end Memory

namespace Service

def listing : Service → Listing → List ParameterDescription
  | .memory m, l => m.listings l
  | .unreachable, _ => []

theorem listingSize_eq (service : Service) (listing : Listing) :
    service.listingSize listing = (service.listing listing).length := by
  cases service with
  | memory memory => rfl
  | unreachable => rfl

theorem listing_perform (service : Service) (c : Call) :
    (service.perform c).2.listing = service.listing := by
  cases service with
  | unreachable => rfl
  | memory memory => exact memory.listings_perform c

theorem listingSize_perform (service : Service) (c : Call) :
    (service.perform c).2.listingSize = service.listingSize := by
  funext listing
  rw [listingSize_eq, listing_perform, ← listingSize_eq]

/-- Every page but the last of a listing holds an entry. -/
def HasPages : Service → Prop
  | .memory m => 0 < m.pageSize
  | .unreachable => True

theorem HasPages.perform {service : Service} (hpages : service.HasPages) (c : Call) :
    (service.perform c).2.HasPages := by
  cases service with
  | unreachable => exact trivial
  | memory memory =>
      have hsame := memory.pageSize_perform c
      exact Nat.lt_of_lt_of_eq hpages hsame.symm

end Service
end DbSteward
