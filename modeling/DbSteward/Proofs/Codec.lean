import DbSteward.Document.Codec
import DbSteward.Proofs.Naming
import DbSteward.Proofs.Table
import Mathlib.Algebra.Group.Int.Defs

/-!
# Readers and writers of JSON values

A reader and a writer belong together when what is written reads back, and when whatever is
read from a value with bounded numbers can be written so that it reads back.  The two are kept
apart by a predicate on what is read and written: it says of a number, for instance, that it is
finite.  Readers and writers that belong together are put together along lists, tables and the
members of a record.
-/

namespace DbSteward

/-! ## Lists of optional values -/

namespace Codec

variable {α β : Type}

theorem mapM_map_eq_some {write : α → β} {read : β → Option α} {as : List α}
    (hread : ∀ a ∈ as, read (write a) = some a) : (as.map write).mapM read = some as := by
  induction as with
  | nil => rfl
  | cons a as ih =>
      rw [List.map_cons, List.mapM_cons, hread a (List.mem_cons_self ..),
        ih fun b hmem => hread b (List.mem_cons_of_mem _ hmem)]
      rfl

theorem exists_of_mapM_eq_some {read : β → Option α} {bs : List β} {as : List α} {a : α}
    (hread : bs.mapM read = some as) (hmem : a ∈ as) : ∃ b ∈ bs, read b = some a := by
  induction bs generalizing as with
  | nil =>
      obtain rfl := Option.some.inj hread
      exact absurd hmem List.not_mem_nil
  | cons b bs ih =>
      rw [List.mapM_cons] at hread
      obtain ⟨first, hfirst, hread⟩ := Option.bind_eq_some_iff.1 hread
      obtain ⟨others, hothers, hreturn⟩ := Option.bind_eq_some_iff.1 hread
      obtain rfl := Option.some.inj hreturn
      rcases List.mem_cons.1 hmem with rfl | htail
      · exact ⟨b, List.mem_cons_self .., hfirst⟩
      · obtain ⟨b', hb', hreads⟩ := ih hothers htail
        exact ⟨b', List.mem_cons_of_mem _ hb', hreads⟩

end Codec

namespace Json

/-! ## Values with bounded numbers -/

/-- The numbers in a value are those that a text can give: integers that fit a word, with a sign
or without, and finite real numbers. -/
inductive Bounded : Json → Prop
  | null : Bounded .null
  | flag (b : Bool) : Bounded (.flag b)
  | integer {i : Int} (hlower : -2 ^ 63 ≤ i) (hupper : i < 2 ^ 64) :
      Bounded (.integer i)
  | real {x : Binary64} (hfinite : x.isFinite = true) : Bounded (.real x)
  | text (s : String) : Bounded (.text s)
  | array {items : List Json} (hitems : ∀ item ∈ items, Bounded item) : Bounded (.array items)
  | object {members : List (String × Json)} (hmembers : ∀ member ∈ members, Bounded member.2) :
      Bounded (.object members)
  | malformed : Bounded .malformed

/-- What is written reads back, and what is read from a bounded value can be written. -/
structure RoundTrips {α : Type} (read : Json → Option α) (write : α → Json) (sound : α → Prop) :
    Prop where
  read_write : ∀ {a : α}, sound a → read (write a) = some a
  sound_of_read : ∀ {j : Json} {a : α}, j.Bounded → read j = some a → sound a

namespace RoundTrips

variable {α : Type} {read : Json → Option α} {write : α → Json} {sound : α → Prop}

/-- Reading, writing and reading again gives what was read first. -/
theorem read_write_of_read (hcodec : RoundTrips read write sound) {j : Json} {a : α}
    (hbounded : j.Bounded) (hread : read j = some a) : read (write a) = some a :=
  hcodec.read_write (hcodec.sound_of_read hbounded hread)

theorem congr {other : α → Prop} (hcodec : RoundTrips read write sound)
    (hiff : ∀ a, sound a ↔ other a) : RoundTrips read write other where
  read_write := fun hother => hcodec.read_write ((hiff _).2 hother)
  sound_of_read := fun hbounded hread => (hiff _).1 (hcodec.sound_of_read hbounded hread)

theorem text : RoundTrips text? .text fun _ => True where
  read_write := fun _ => rfl
  sound_of_read := fun _ _ => trivial

theorem flag : RoundTrips flag? .flag fun _ => True where
  read_write := fun _ => rfl
  sound_of_read := fun _ _ => trivial

theorem word : RoundTrips word? (fun i => .integer i.toInt) fun _ => True where
  read_write := by
    intro i _
    rw [word?, Word.ofInt?, if_pos ⟨i.minValue_le_toInt, i.toInt_le⟩, Int64.ofInt_toInt]
  sound_of_read := fun _ _ => trivial

/-- Null is written for the absent value only. -/
theorem optional (hcodec : RoundTrips read write sound)
    (hnull : ∀ a, sound a → write a ≠ .null) :
    RoundTrips (Json.optional read) (ofOption write) fun v => ∀ a ∈ v, sound a where
  read_write := by
    intro v hsound
    cases v with
    | none => rfl
    | some a =>
        have hread := hcodec.read_write (hsound a rfl)
        have hsome : Json.optional read (write a) = (read (write a)).map some := by
          unfold Json.optional
          split
          · exact absurd ‹write a = .null› (hnull a (hsound a rfl))
          · rfl
        rw [ofOption, hsome, hread, Option.map_some]
  sound_of_read := by
    intro j v hbounded hread a hmem
    obtain rfl := hmem
    unfold Json.optional at hread
    split at hread
    · cases hread
    · obtain ⟨a', ha', heq⟩ := Option.map_eq_some_iff.1 hread
      obtain rfl := Option.some.inj heq
      exact hcodec.sound_of_read hbounded ha'

/-- A list is read item by item. -/
theorem list (hcodec : RoundTrips read write sound) :
    RoundTrips (list? read) (fun as => .array (as.map write)) fun as => ∀ a ∈ as, sound a where
  read_write := by
    intro as hsound
    exact Codec.mapM_map_eq_some fun a hmem => hcodec.read_write (hsound a hmem)
  sound_of_read := by
    intro j as hbounded hread
    unfold list? at hread
    split at hread
    · cases hbounded with
      | array hitems =>
          intro a hmem
          obtain ⟨item, hitem, ha⟩ := Codec.exists_of_mapM_eq_some hread hmem
          exact hcodec.sound_of_read (hitems item hitem) ha
    · cases hread

theorem table (hcodec : RoundTrips read write sound) :
    RoundTrips (table? read) (ofTable write) fun t => ∀ entry ∈ t.entries, sound entry.2 where
  read_write := by
    intro t hsound
    have hentries : (t.entries.map fun entry => (entry.1, write entry.2)).mapM
        (fun member => (read member.2).map fun value => (member.1, value)) = some t.entries :=
      Codec.mapM_map_eq_some fun entry hmem => by
        rw [hcodec.read_write (hsound entry hmem), Option.map_some]
    simp only [table?, ofTable, hentries, Option.map_some, Table.ofList_entries]
  sound_of_read := by
    intro j t hbounded hread
    unfold table? at hread
    split at hread
    · cases hbounded with
      | object hmembers =>
          intro entry hmem
          obtain ⟨entries, hentries, rfl⟩ := Option.map_eq_some_iff.1 hread
          obtain ⟨member, hmember, hvalue⟩ :=
            Codec.exists_of_mapM_eq_some hentries (Table.mem_of_mem_ofList hmem)
          obtain ⟨_, hread, rfl⟩ := Option.map_eq_some_iff.1 hvalue
          exact hcodec.sound_of_read (hmembers member hmember) hread
    · cases hread

end RoundTrips

/-! ## Members of a record -/

theorem named?_of_nodup {names : List String} {members : List (String × Json)}
    (hnodup : (members.map Prod.fst).Nodup) :
    named? names members = some fun name => members.lookup name := by
  have hcount : ∀ name, ¬ 2 ≤ members.countP fun member => member.1 == name := by
    intro name
    have hone := List.nodup_iff_count_le_one.1 hnodup name
    rw [List.count, List.countP_map] at hone
    exact Nat.not_le.2 (Nat.lt_succ_of_le hone)
  rw [named?, if_neg]
  simp [hcount]

/-- An object whose members are among distinct names, in their order, is a record of them. -/
theorem record?_object (keys : List String) {names : List String}
    {members : List (String × Json)} (hkeys : (members.map Prod.fst).Sublist keys)
    (hnodup : keys.Nodup) :
    record? names (.object members) = some fun name => members.lookup name :=
  named?_of_nodup (hnodup.sublist hkeys)

theorem openRecord?_object (keys : List String) {own shared : List String}
    {members : List (String × Json)} (hkeys : (members.map Prod.fst).Sublist keys)
    (hnodup : keys.Nodup)
    (hplain : ∀ member ∈ members, member.1 ∈ own ∨ member.2.plainWithin openDepth = true) :
    openRecord? own shared (.object members) = some fun name => members.lookup name := by
  have hall : (members.all fun member =>
      own.contains member.1 || member.2.plainWithin openDepth) = true := by
    simpa using hplain
  rw [openRecord?, if_pos hall]
  exact named?_of_nodup (hnodup.sublist hkeys)

/-- All members that a finder gives are bounded. -/
def Finder.Bounded (find : Finder) : Prop :=
  ∀ name value, find name = some value → value.Bounded

theorem Bounded.of_named? {names : List String} {members : List (String × Json)} {find : Finder}
    (hbounded : ∀ member ∈ members, member.2.Bounded) (hread : named? names members = some find) :
    find.Bounded := by
  unfold named? at hread
  split at hread
  · cases hread
  · obtain rfl := Option.some.inj hread
    intro name value hfind
    exact hbounded (name, value) (Named.mem_of_lookup hfind)

theorem Bounded.of_record? {names : List String} {j : Json} {find : Finder} (hbounded : j.Bounded)
    (hread : record? names j = some find) : find.Bounded := by
  cases hbounded with
  | object hmembers => exact .of_named? hmembers hread
  | array hitems =>
      simp only [record?] at hread
      split at hread
      · cases hread
      · obtain rfl := Option.some.inj hread
        intro name value hfind
        exact hitems value (List.mem_of_getElem? hfind)
  | _ => cases hread

theorem Bounded.of_openRecord? {own shared : List String} {j : Json} {find : Finder}
    (hbounded : j.Bounded) (hread : openRecord? own shared j = some find) : find.Bounded := by
  cases hbounded with
  | object hmembers =>
      simp only [openRecord?] at hread
      split at hread
      · exact .of_named? hmembers hread
      · cases hread
  | _ => cases hread

namespace RoundTrips

variable {α : Type} {read : Json → Option α} {write : α → Json} {sound : α → Prop}

theorem sound_of_required (hcodec : RoundTrips read write sound) {find : Finder} {name : String}
    {a : α} (hbounded : find.Bounded) (hread : find.required name read = some a) : sound a := by
  obtain ⟨value, hfind, hvalue⟩ := Option.bind_eq_some_iff.1 hread
  exact hcodec.sound_of_read (hbounded name value hfind) hvalue

theorem sound_of_withDefault (hcodec : RoundTrips read write sound) {find : Finder}
    {name : String} {absent a : α} (hbounded : find.Bounded) (habsent : sound absent)
    (hread : find.withDefault name absent read = some a) : sound a := by
  unfold Finder.withDefault at hread
  split at hread
  · exact Option.some.inj hread ▸ habsent
  · rename_i value hfind
    exact hcodec.sound_of_read (hbounded name value hfind) hread

end RoundTrips

end Json
end DbSteward
