import DbSteward.Change.Path
import Mathlib.Data.List.Infix

/-!
# Parts of texts and paths

A text falls apart at a mark into the parts that the library's own splitting gives.  A
path covers another one exactly when its segments are the first segments of the other,
and this is how all later modules reason about paths.
-/

namespace DbSteward
namespace Text

theorem parts_eq_splitOn (mark : Char) (text : List Char) :
    parts mark text = text.splitOn mark := by
  induction text with
  | nil => simp [parts]
  | cons c text ih =>
      rw [List.splitOn_cons_eq_if_modifyHead, parts, ih]
      by_cases hc : c = mark
      · simp [hc]
      · obtain ⟨part, others, hparts⟩ :=
          List.exists_cons_of_ne_nil (List.splitOn_ne_nil mark text)
        simp [hc, hparts]

theorem intercalate_append_cons {mark : List Char} {front : List (List Char)}
    (hfront : front ≠ []) (part : List Char) (others : List (List Char)) :
    mark.intercalate (front ++ part :: others) =
      mark.intercalate front ++ mark ++ mark.intercalate (part :: others) := by
  induction front with
  | nil => exact absurd rfl hfront
  | cons head rest ih =>
      cases rest with
      | nil => simp [List.intercalate_cons_cons]
      | cons next rest =>
          have htail := ih (by simp)
          simp only [List.cons_append] at htail ⊢
          rw [List.intercalate_cons_cons, htail, List.intercalate_cons_cons]
          simp

/-- A joined list of parts begins with the join of another one that ends within one of them. -/
theorem intercalate_prefix (mark : List Char) (front : List (List Char)) (last extra : List Char)
    (more : List (List Char)) :
    mark.intercalate (front ++ [last]) <+: mark.intercalate (front ++ (last ++ extra) :: more) := by
  have hlast : mark.intercalate [last] <+: mark.intercalate ((last ++ extra) :: more) := by
    cases more <;> simp [List.intercalate_cons_cons]
  cases front with
  | nil => exact hlast
  | cons head front =>
      rw [intercalate_append_cons (List.cons_ne_nil _ _),
        intercalate_append_cons (List.cons_ne_nil _ _), List.prefix_append_right_inj]
      exact hlast

/-- Where two texts meet, the last part of the first one and the first part of the second one
grow together. -/
theorem splitOn_append (mark : Char) (left right : List Char) :
    ∃ front last first more, left.splitOn mark = front ++ [last] ∧
      right.splitOn mark = first :: more ∧
      (left ++ right).splitOn mark = front ++ (last ++ first) :: more := by
  induction left with
  | nil =>
      obtain ⟨first, more, hright⟩ :=
        List.exists_cons_of_ne_nil (List.splitOn_ne_nil mark right)
      exact ⟨[], [], first, more, List.splitOn_nil mark, hright, hright⟩
  | cons c left ih =>
      obtain ⟨front, last, first, more, hleft, hright, hboth⟩ := ih
      rw [List.cons_append, List.splitOn_cons_eq_if_modifyHead,
        List.splitOn_cons_eq_if_modifyHead, hleft, hboth]
      by_cases hmark : c = mark
      · exact ⟨[] :: front, last, first, more, by simp [hmark], hright, by simp [hmark]⟩
      · cases front with
        | nil => exact ⟨[], c :: last, first, more, by simp [hmark], hright, by simp [hmark]⟩
        | cons head front =>
            exact ⟨(c :: head) :: front, last, first, more, by simp [hmark], hright,
              by simp [hmark]⟩

theorem startsWith_iff {text front : String} :
    startsWith text front = true ↔ front.toList <+: text.toList := by
  rw [startsWith, Option.isSome_iff_exists]
  simp only [after?_eq_some_iff]
  exact exists_congr fun rest => eq_comm

theorem occursIn_iff {needle text : List Char} :
    occursIn needle text = true ↔ needle <:+: text := by
  induction text with
  | nil => simp [occursIn]
  | cons c text ih =>
      have hprefix : (after? needle (c :: text)).isSome = true ↔ needle <+: c :: text := by
        simp only [Option.isSome_iff_exists, after?_eq_some_iff]
        exact exists_congr fun rest => eq_comm
      rw [occursIn, Bool.or_eq_true, ih, hprefix, List.infix_cons_iff]

theorem mentions_iff {text needle : String} :
    mentions text needle = true ↔ needle.toList <:+: text.toList :=
  occursIn_iff

end Text

namespace Path

@[simp] theorem segments_below (path name : String) :
    segments (below path name) = segments path ++ segments name := by
  have htext : (below path name).toList = path.toList ++ '.' :: name.toList := by
    simp [below]
  simp only [segments, Text.parts_eq_splitOn]
  rw [htext, List.splitOn_append_cons_self]

theorem segments_of_plain {name : String} (hplain : '.' ∉ name.toList) :
    segments name = [name.toList] := by
  rw [segments, Text.parts_eq_splitOn, List.splitOn_eq_singleton hplain]

theorem segments_ne_nil (path : String) : segments path ≠ [] :=
  Text.parts_ne_nil '.' path.toList

theorem intercalate_segments (path : String) :
    ['.'].intercalate (segments path) = path.toList := by
  rw [segments, Text.parts_eq_splitOn, List.intercalate_splitOn]

theorem covers_iff_toList {top path : String} :
    covers top path = true ↔
      path.toList = top.toList ∨ ∃ rest, path.toList = top.toList ++ '.' :: rest := by
  unfold covers
  cases hafter : Text.after? top.toList path.toList with
  | none =>
      have hnot : ∀ rest, path.toList ≠ top.toList ++ rest := by
        intro rest heq
        rw [Text.after?_eq_some_iff.2 heq] at hafter
        simp at hafter
      have hself := hnot []
      simp only [List.append_nil] at hself
      simp [hself, hnot]
  | some rest =>
      rw [Text.after?_eq_some_iff] at hafter
      rw [hafter]
      cases rest with
      | nil => simp
      | cons c rest => simp

/-- The segments decide: names that merely begin alike do not cover each other. -/
theorem covers_iff_segments {top path : String} :
    covers top path = true ↔ segments top <+: segments path := by
  rw [covers_iff_toList]
  constructor
  · rintro (heq | ⟨rest, heq⟩)
    · rw [String.toList_inj.1 heq]
    · refine ⟨rest.splitOn '.', ?_⟩
      simp only [segments, Text.parts_eq_splitOn]
      rw [heq, List.splitOn_append_cons_self]
  · rintro ⟨more, hmore⟩
    have hpath := intercalate_segments path
    rw [← hmore] at hpath
    cases more with
    | nil =>
        rw [List.append_nil, intercalate_segments] at hpath
        exact .inl hpath.symm
    | cons part others =>
        refine .inr ⟨['.'].intercalate (part :: others), ?_⟩
        rw [← hpath, Text.intercalate_append_cons (segments_ne_nil top), intercalate_segments]
        simp

end Path
end DbSteward
