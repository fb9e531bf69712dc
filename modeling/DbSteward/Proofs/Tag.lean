import DbSteward.Change.Tag
import Mathlib.Data.List.Nodup

/-!
# Edits of tags

In a list of tags with distinct keys the tag that counts for a key is the only one that has
it.  Carried out on such a list, the edit to another one leaves its keys there, and nothing to
be done unless the other list asks for two values under one key.
-/

namespace DbSteward
namespace Tag

def DistinctKeys (tags : List Tag) : Prop :=
  (tags.map key).Nodup

instance (tags : List Tag) : Decidable (DistinctKeys tags) :=
  inferInstanceAs (Decidable (tags.map key).Nodup)

theorem DistinctKeys.eq_of_key {tags : List Tag} (hdistinct : DistinctKeys tags) {a b : Tag}
    (ha : a ∈ tags) (hb : b ∈ tags) (hkey : a.key = b.key) : a = b :=
  List.inj_on_of_nodup_map hdistinct ha hb hkey

theorem DistinctKeys.filter {tags : List Tag} (hdistinct : DistinctKeys tags)
    (keep : Tag → Bool) : DistinctKeys (tags.filter keep) :=
  hdistinct.sublist (List.filter_sublist.map key)

theorem of_last? {tags : List Tag} {key : String} {tag : Tag} (hlast : last? tags key = some tag) :
    tag ∈ tags ∧ tag.key = key := by
  unfold last? at hlast
  have hkey := List.find?_some hlast
  exact ⟨List.mem_reverse.1 (List.mem_of_find?_eq_some hlast), beq_iff_eq.1 hkey⟩

theorem last?_eq_none_iff {tags : List Tag} {key : String} :
    last? tags key = none ↔ key ∉ tags.map Tag.key := by
  simp [last?, List.find?_eq_none]

theorem last?_eq_some_iff {tags : List Tag} (hdistinct : DistinctKeys tags) {key : String}
    {tag : Tag} : last? tags key = some tag ↔ tag ∈ tags ∧ tag.key = key := by
  constructor
  · exact of_last?
  · rintro ⟨hmem, rfl⟩
    cases hlast : last? tags tag.key with
    | none => exact absurd (List.mem_map_of_mem hmem) (last?_eq_none_iff.1 hlast)
    | some other =>
        obtain ⟨hother, hkey⟩ := of_last? hlast
        rw [hdistinct.eq_of_key hother hmem hkey]

theorem last?_cons (tag : Tag) (rest : List Tag) (key : String) :
    last? (tag :: rest) key =
      (last? rest key).or (if tag.key = key then some tag else none) := by
  rw [last?, List.reverse_cons, List.find?_append]
  by_cases hkey : tag.key = key
  · simp [last?, hkey]
  · simp [last?, hkey]

/-- No two values under one key; an absent value counts as the empty one. -/
def Consistent (tags : List Tag) : Prop :=
  ∀ a ∈ tags, ∀ b ∈ tags, a.key = b.key → a.content = b.content

instance (tags : List Tag) : Decidable (Consistent tags) :=
  inferInstanceAs (Decidable (∀ a ∈ tags, ∀ b ∈ tags, a.key = b.key → a.content = b.content))

theorem DistinctKeys.consistent {tags : List Tag} (hdistinct : DistinctKeys tags) :
    Consistent tags :=
  fun _ ha _ hb hkey => congrArg content (hdistinct.eq_of_key ha hb hkey)

/-! ## Writing -/

theorem mem_write_iff {tags : List Tag} (hdistinct : DistinctKeys tags) (tag other : Tag) :
    other ∈ write tag tags ↔ other = tag ∨ other ∈ tags ∧ other.key ≠ tag.key := by
  induction tags with
  | nil => simp [write]
  | cons head rest ih =>
      have hnot : head.key ∉ rest.map key := (List.nodup_cons.1 hdistinct).1
      have hrest : DistinctKeys rest := (List.nodup_cons.1 hdistinct).2
      rw [write]
      by_cases hkey : head.key = tag.key
      · have hwritten : ({ head with value := tag.value } : Tag) = tag := by
          rw [hkey]
        have hapart : other ∈ rest → other.key ≠ tag.key := by
          intro hmem heq
          exact hnot (List.mem_map.2 ⟨other, hmem, heq.trans hkey.symm⟩)
        rw [if_pos (beq_iff_eq.2 hkey), hwritten, List.mem_cons, List.mem_cons]
        constructor
        · rintro (rfl | hmem)
          · exact .inl rfl
          · exact .inr ⟨.inr hmem, hapart hmem⟩
        · rintro (rfl | ⟨rfl | hmem, hne⟩)
          · exact .inl rfl
          · exact absurd hkey hne
          · exact .inr hmem
      · rw [if_neg (by simpa using hkey), List.mem_cons, ih hrest, List.mem_cons]
        constructor
        · rintro (rfl | rfl | ⟨hmem, hne⟩)
          · exact .inr ⟨.inl rfl, hkey⟩
          · exact .inl rfl
          · exact .inr ⟨.inr hmem, hne⟩
        · rintro (rfl | ⟨rfl | hmem, hne⟩)
          · exact .inr (.inl rfl)
          · exact .inl rfl
          · exact .inr (.inr ⟨hmem, hne⟩)

theorem DistinctKeys.write {tags : List Tag} (hdistinct : DistinctKeys tags) (tag : Tag) :
    DistinctKeys (write tag tags) := by
  induction tags with
  | nil => simp [DistinctKeys, Tag.write]
  | cons head rest ih =>
      have hnot : head.key ∉ rest.map key := (List.nodup_cons.1 hdistinct).1
      have hrest : DistinctKeys rest := (List.nodup_cons.1 hdistinct).2
      rw [Tag.write]
      by_cases hkey : head.key = tag.key
      · rw [if_pos (beq_iff_eq.2 hkey)]
        exact hdistinct
      · rw [if_neg (by simpa using hkey)]
        refine List.nodup_cons.2 ⟨?_, ih hrest⟩
        intro hmem
        obtain ⟨other, hother, heq⟩ := List.mem_map.1 hmem
        rcases (mem_write_iff hrest tag other).1 hother with rfl | ⟨hold, -⟩
        · exact hkey heq.symm
        · exact hnot (List.mem_map.2 ⟨other, hold, heq⟩)

theorem DistinctKeys.writeAll {tags : List Tag} (hdistinct : DistinctKeys tags)
    (writes : List Tag) : DistinctKeys (writeAll tags writes) := by
  induction writes generalizing tags with
  | nil => exact hdistinct
  | cons tag rest ih => exact ih (hdistinct.write tag)

theorem last?_write {tags : List Tag} (hdistinct : DistinctKeys tags) (tag : Tag)
    (key : String) :
    last? (write tag tags) key = if tag.key = key then some tag else last? tags key := by
  apply Option.ext
  intro other
  rw [last?_eq_some_iff (hdistinct.write tag), mem_write_iff hdistinct]
  by_cases hkey : tag.key = key
  · rw [if_pos hkey]
    constructor
    · rintro ⟨rfl | ⟨-, hne⟩, hother⟩
      · rfl
      · exact absurd (hother.trans hkey.symm) hne
    · intro hsame
      obtain rfl : tag = other := Option.some.inj hsame
      exact ⟨.inl rfl, hkey⟩
  · rw [if_neg hkey, last?_eq_some_iff hdistinct]
    constructor
    · rintro ⟨rfl | ⟨hmem, -⟩, hother⟩
      · exact absurd hother hkey
      · exact ⟨hmem, hother⟩
    · rintro ⟨hmem, hother⟩
      exact ⟨.inr ⟨hmem, fun hsame => hkey (hsame.symm.trans hother)⟩, hother⟩

/-- Of all that is written under a key the last one counts, and what was there only if nothing
is written. -/
theorem last?_writeAll {tags : List Tag} (hdistinct : DistinctKeys tags) (writes : List Tag)
    (key : String) :
    last? (writeAll tags writes) key = (last? writes key).or (last? tags key) := by
  induction writes generalizing tags with
  | nil => rfl
  | cons tag rest ih =>
      have hlater := ih (hdistinct.write tag)
      rw [last?_write hdistinct] at hlater
      rw [writeAll, List.foldl_cons]
      refine hlater.trans ?_
      rw [last?_cons, Option.or_assoc]
      by_cases hkey : tag.key = key
      · simp [hkey]
      · simp [hkey]

/-! ## Edits -/

theorem settled_iff {desired observed : List Tag} :
    settled desired observed = true ↔
      (∀ tag ∈ desired, (last? observed tag.key).map content = some tag.content) ∧
        ∀ tag ∈ observed, tag.key ∈ desired.map key := by
  simp only [settled, Edit.isEmpty, edit, Bool.and_eq_true, List.isEmpty_iff,
    List.filter_eq_nil_iff, List.map_eq_nil_iff, bne_iff_ne, Ne, not_not]
  refine and_congr_right fun _ => forall₂_congr fun tag _ => ?_
  simp

/-- Nothing is to be done exactly when no two values are desired under one key and both lists say
the same of every key. -/
theorem settled_iff_contents {desired observed : List Tag} :
    settled desired observed = true ↔
      Consistent desired ∧
        ∀ key, (last? desired key).map content = (last? observed key).map content := by
  rw [settled_iff]
  constructor
  · rintro ⟨hdone, hkeys⟩
    refine ⟨fun a ha b hb hkey => ?_, fun key => ?_⟩
    · have hsame := hdone a ha
      rw [hkey, hdone b hb] at hsame
      exact (Option.some.inj hsame).symm
    · cases hlast : last? desired key with
      | some tag =>
          obtain ⟨htag, rfl⟩ := of_last? hlast
          exact (hdone tag htag).symm
      | none =>
          have hnone : last? observed key = none := by
            rw [last?_eq_none_iff] at hlast ⊢
            intro hmem
            obtain ⟨tag, htag, rfl⟩ := List.mem_map.1 hmem
            exact hlast (hkeys tag htag)
          rw [hnone]
  · rintro ⟨hconsistent, hsame⟩
    refine ⟨fun tag htag => ?_, fun tag htag => ?_⟩
    · rw [← hsame]
      cases hlast : last? desired tag.key with
      | some other =>
          obtain ⟨hother, hkey⟩ := of_last? hlast
          exact congrArg some (hconsistent other hother tag htag hkey)
      | none => exact absurd (List.mem_map_of_mem htag) (last?_eq_none_iff.1 hlast)
    · by_contra hnot
      have hnone := hsame tag.key
      rw [last?_eq_none_iff.2 hnot, Option.map_none, eq_comm, Option.map_eq_none_iff,
        last?_eq_none_iff] at hnone
      exact hnone (List.mem_map_of_mem htag)

/-- A list of tags is settled against itself unless it has two values under one key. -/
theorem settled_self_iff {tags : List Tag} : settled tags tags = true ↔ Consistent tags :=
  settled_iff_contents.trans (and_iff_left fun _ => rfl)

def afterEdit (desired observed : List Tag) : List Tag :=
  writeAll (removeAll observed (edit desired observed).removals) (edit desired observed).writes

theorem mem_kept_iff {desired observed : List Tag} (tag : Tag) :
    tag ∈ removeAll observed (edit desired observed).removals ↔
      tag ∈ observed ∧ tag.key ∈ desired.map key := by
  have hremoved : tag ∈ observed →
      (tag.key ∈ (edit desired observed).removals ↔ tag.key ∉ desired.map key) := by
    intro hmem
    constructor
    · intro hremoval
      obtain ⟨other, hother, heq⟩ := List.mem_map.1 hremoval
      have hgone := (List.mem_filter.1 hother).2
      rw [heq] at hgone
      simpa using hgone
    · intro hgone
      refine List.mem_map.2 ⟨tag, List.mem_filter.2 ⟨hmem, ?_⟩, rfl⟩
      simpa using hgone
  rw [removeAll, List.mem_filter]
  refine and_congr_right fun hmem => ?_
  rw [Bool.not_eq_true', List.contains_eq_mem, decide_eq_false_iff_not, hremoved hmem, not_not]

theorem DistinctKeys.kept {observed : List Tag} (hobserved : DistinctKeys observed)
    (removals : List String) : DistinctKeys (removeAll observed removals) :=
  hobserved.filter _

theorem last?_kept {desired observed : List Tag} (hobserved : DistinctKeys observed)
    {key : String} (hkey : key ∈ desired.map Tag.key) :
    last? (removeAll observed (edit desired observed).removals) key = last? observed key := by
  apply Option.ext
  intro tag
  rw [last?_eq_some_iff (hobserved.kept _), last?_eq_some_iff hobserved, mem_kept_iff]
  constructor
  · rintro ⟨⟨hmem, -⟩, hsame⟩
    exact ⟨hmem, hsame⟩
  · rintro ⟨hmem, rfl⟩
    exact ⟨⟨hmem, hkey⟩, rfl⟩

variable {desired observed : List Tag}

theorem DistinctKeys.afterEdit (hobserved : DistinctKeys observed) :
    DistinctKeys (afterEdit desired observed) :=
  (hobserved.kept _).writeAll _

theorem last?_afterEdit (hobserved : DistinctKeys observed) {key : String}
    (hkey : key ∈ desired.map Tag.key) :
    last? (afterEdit desired observed) key =
      (last? (edit desired observed).writes key).or (last? observed key) := by
  rw [afterEdit, last?_writeAll (hobserved.kept _), last?_kept hobserved hkey]

/-- A desired tag is written unless its value is there. -/
theorem mem_writes_or_there {tag : Tag} (htag : tag ∈ desired) :
    tag ∈ (edit desired observed).writes ∨
      (last? observed tag.key).map content = some tag.content := by
  by_cases hthere : (last? observed tag.key).map content = some tag.content
  · exact .inr hthere
  · refine .inl (List.mem_filter.2 ⟨htag, ?_⟩)
    rw [bne_iff_ne]
    exact hthere

theorem mem_keys_afterEdit_iff (hobserved : DistinctKeys observed) {key : String} :
    key ∈ (afterEdit desired observed).map Tag.key ↔ key ∈ desired.map Tag.key := by
  have hsources : key ∈ (afterEdit desired observed).map Tag.key ↔
      key ∈ (edit desired observed).writes.map Tag.key ∨
        key ∈ (removeAll observed (edit desired observed).removals).map Tag.key := by
    rw [← not_iff_not, not_or, ← last?_eq_none_iff, ← last?_eq_none_iff, ← last?_eq_none_iff,
      afterEdit, last?_writeAll (hobserved.kept _), Option.or_eq_none_iff]
  rw [hsources]
  constructor
  · rintro (hwritten | hkept)
    · exact (List.filter_sublist.map Tag.key).subset hwritten
    · obtain ⟨tag, htag, rfl⟩ := List.mem_map.1 hkept
      exact ((mem_kept_iff tag).1 htag).2
  · intro hwish
    obtain ⟨tag, htag, rfl⟩ := List.mem_map.1 hwish
    rcases mem_writes_or_there htag with hwritten | hthere
    · exact .inl (List.mem_map_of_mem hwritten)
    · obtain ⟨old, hold, -⟩ := Option.map_eq_some_iff.1 hthere
      obtain ⟨hmem, hkey⟩ := of_last? hold
      refine .inr (List.mem_map.2 ⟨old, (mem_kept_iff old).2 ⟨hmem, ?_⟩, hkey⟩)
      rw [hkey]
      exact hwish

/-- An edit does what it is for, unless two values are desired under one key. -/
theorem settled_afterEdit_iff (hobserved : DistinctKeys observed) :
    settled desired (afterEdit desired observed) = true ↔ Consistent desired := by
  constructor
  · intro hsettled
    exact (settled_iff_contents.1 hsettled).1
  · intro hconsistent
    rw [settled_iff]
    refine ⟨fun tag htag => ?_, fun tag htag => ?_⟩
    · rw [last?_afterEdit hobserved (List.mem_map_of_mem htag)]
      cases hlast : last? (edit desired observed).writes tag.key with
      | some written =>
          obtain ⟨hmem, hkey⟩ := of_last? hlast
          have hwish : written ∈ desired := (List.mem_filter.1 hmem).1
          simp [hconsistent written hwish tag htag hkey]
      | none =>
          have hfresh := last?_eq_none_iff.1 hlast
          rcases mem_writes_or_there htag with hwritten | hthere
          · exact absurd (List.mem_map_of_mem hwritten) hfresh
          · exact hthere
    · exact (mem_keys_afterEdit_iff hobserved).1 (List.mem_map_of_mem htag)

theorem settled_afterEdit (hdesired : DistinctKeys desired)
    (hobserved : DistinctKeys observed) :
    settled desired (afterEdit desired observed) = true :=
  (settled_afterEdit_iff hobserved).2 hdesired.consistent

end Tag
end DbSteward
