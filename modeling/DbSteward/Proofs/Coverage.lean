import DbSteward.Change.Changes
import DbSteward.Proofs.Text

/-!
# Coverage of paths

Which changes concern a path is asked of texts.  The answer depends on the segments of paths
alone, and it can be found on the bytes of the texts: the one byte that has to be looked at is
there, and it begins a character.
-/

namespace DbSteward
namespace Text

/-! ## Bytes of a text -/

/-- Why a byte of a text is no character to be looked at. -/
inductive Misreading where
  | outside
  | withinCharacter
  deriving DecidableEq, Repr

/-- The byte at an offset of a text, which has to be the first one of a character. -/
def byteAt (text : String) (offset : String.Pos.Raw) : Except Misreading UInt8 :=
  if hinside : offset < text.rawEndPos then
    if offset.isValid text then .ok (text.getUTF8Byte offset hinside)
    else .error .withinCharacter
  else .error .outside

def firstByte (c : Char) : UInt8 :=
  have hsome : 0 < (String.utf8EncodeChar c).length := by
    rw [String.length_utf8EncodeChar]
    exact c.utf8Size_pos
  (String.utf8EncodeChar c)[0]

/-- A byte with the highest bit set is not the one of a point. -/
theorem or_ne_point {lead : UInt8} (hhigh : lead.toBitVec[7] = true) (b : UInt8) :
    b ||| lead ≠ 0x2E := by
  intro hpoint
  have hbit := congrArg (fun byte : UInt8 => byte.toBitVec.getLsbD 7) hpoint
  simp [hhigh] at hbit

theorem firstByte_eq_point_iff {c : Char} : firstByte c = 0x2E ↔ c = '.' := by
  constructor
  · intro hbyte
    unfold firstByte at hbyte
    rcases c.utf8Size_eq with hsize | hsize | hsize | hsize
    · simp only [String.utf8EncodeChar_eq_singleton hsize, List.getElem_cons_zero] at hbyte
      have hsmall : c.val.toNat ≤ 127 := UInt32.le_iff_toNat_le.1 (Char.utf8Size_eq_one_iff.1 hsize)
      have hlow : c.val.toNat % 256 = 46 := congrArg UInt8.toNat hbyte
      refine Char.ext (UInt32.toNat_inj.1 ?_)
      change c.val.toNat = 46
      omega
    · simp only [String.utf8EncodeChar_eq_cons_cons hsize, List.getElem_cons_zero] at hbyte
      exact absurd hbyte (or_ne_point (by decide) _)
    · simp only [String.utf8EncodeChar_eq_cons_cons_cons hsize, List.getElem_cons_zero] at hbyte
      exact absurd hbyte (or_ne_point (by decide) _)
    · simp only [String.utf8EncodeChar_eq_cons_cons_cons_cons hsize,
        List.getElem_cons_zero] at hbyte
      exact absurd hbyte (or_ne_point (by decide) _)
  · rintro rfl
    decide

section Continued

variable {text front : String} {c : Char} {rest : List Char}

theorem eq_append_of_toList (htext : text.toList = front.toList ++ c :: rest) :
    text = front ++ String.ofList (c :: rest) := by
  rw [← String.toList_inj, htext, String.toList_append, String.toList_ofList]

theorem rawEndPos_lt (htext : text.toList = front.toList ++ c :: rest) :
    front.rawEndPos < text.rawEndPos := by
  have hsome : 0 < (String.ofList (c :: rest)).utf8ByteSize := by
    rw [String.ofList_cons, String.utf8ByteSize_append, String.utf8ByteSize_singleton]
    exact Nat.add_pos_left c.utf8Size_pos _
  rw [eq_append_of_toList htext, String.Pos.Raw.lt_iff, String.byteIdx_rawEndPos,
    String.byteIdx_rawEndPos, String.utf8ByteSize_append]
  omega

/-- Where a text goes on with a character, the first byte of this character is looked at. -/
theorem byteAt_rawEndPos (htext : text.toList = front.toList ++ c :: rest) :
    byteAt text front.rawEndPos = .ok (firstByte c) := by
  have hsplit := eq_append_of_toList htext
  have hbytes : text.toByteArray = front.toByteArray ++ ([c].utf8Encode ++ rest.utf8Encode) := by
    rw [hsplit, String.toByteArray_append, String.toByteArray_ofList, ← List.utf8Encode_append,
      List.singleton_append]
  have hvalid : front.rawEndPos.isValid text = true :=
    String.Pos.Raw.isValid_eq_true_iff.2
      (String.Pos.Raw.isValid_iff_exists_append.2 ⟨front, _, hsplit, rfl⟩)
  rw [byteAt, dif_pos (rawEndPos_lt htext), if_pos hvalid]
  congr 1
  simp only [String.getUTF8Byte, hbytes]
  rw [ByteArray.getElem_append_right (by simp), ByteArray.getElem_append_left
    (by simpa [List.utf8Encode] using c.utf8Size_pos)]
  simp [firstByte, List.utf8Encode]

end Continued

/-- A longer text that begins with the bytes of another one begins with its characters. -/
theorem begins_with_bytes_iff {text front : String} :
    front.utf8ByteSize < text.utf8ByteSize ∧
        (text.toByteArray.extract 0 front.utf8ByteSize).data = front.toByteArray.data ↔
      ∃ c rest, text.toList = front.toList ++ c :: rest := by
  constructor
  · rintro ⟨hlonger, hdata⟩
    have hbytes := ByteArray.ext hdata
    have hsplit : front.toByteArray ++ text.toByteArray.extract front.utf8ByteSize
        text.toByteArray.size = text.toByteArray := by
      rw [← hbytes, ← ByteArray.extract_eq_extract_append_extract _ (Nat.zero_le _),
        ByteArray.extract_zero_size]
      exact hlonger.le
    have hprefix : front.toList <+: text.toList := by
      refine List.isPrefix_of_utf8Encode_append_eq_utf8Encode
        (text.toByteArray.extract front.utf8ByteSize text.toByteArray.size) ?_
      rw [String.utf8Encode_toList, String.utf8Encode_toList, hsplit]
    obtain ⟨rest, hrest⟩ := hprefix
    cases rest with
    | nil =>
        rw [List.append_nil, String.toList_inj] at hrest
        rw [hrest] at hlonger
        exact absurd hlonger (Nat.lt_irrefl _)
    | cons c rest => exact ⟨c, rest, hrest.symm⟩
  · rintro ⟨c, rest, htext⟩
    have hsplit := eq_append_of_toList htext
    refine ⟨String.Pos.Raw.lt_iff.1 (rawEndPos_lt htext), congrArg ByteArray.data ?_⟩
    rw [hsplit, String.toByteArray_append]
    exact ByteArray.extract_append_eq_left String.size_toByteArray.symm

end Text

namespace Path

/-- The test for coverage on the bytes of two paths: they are the same, or the second one is
longer, begins with the first one and goes on with a point. -/
def coversByBytes (top path : String) : Except Text.Misreading Bool :=
  if path = top then .ok true
  else if top.utf8ByteSize < path.utf8ByteSize ∧
      (path.toByteArray.extract 0 top.utf8ByteSize).data = top.toByteArray.data then
    (Text.byteAt path top.rawEndPos).map (· == 0x2E)
  else .ok false

theorem covers_iff_of_append {top path : String} {c : Char} {rest : List Char}
    (hpath : path.toList = top.toList ++ c :: rest) : covers top path = true ↔ c = '.' := by
  rw [covers_iff_toList, hpath]
  simp

theorem coversByBytes_eq (top path : String) : coversByBytes top path = .ok (covers top path) := by
  unfold coversByBytes
  by_cases hsame : path = top
  · subst hsame
    rw [if_pos rfl, covers_iff_toList.2 (.inl rfl)]
  rw [if_neg hsame]
  by_cases hmore : ∃ c rest, path.toList = top.toList ++ c :: rest
  · rw [if_pos (Text.begins_with_bytes_iff.2 hmore)]
    obtain ⟨c, rest, hpath⟩ := hmore
    have hpoint : (Text.firstByte c == 0x2E) = covers top path := by
      rw [Bool.eq_iff_iff, beq_iff_eq, Text.firstByte_eq_point_iff, covers_iff_of_append hpath]
    rw [Text.byteAt_rawEndPos hpath, ← hpoint]
    rfl
  · rw [if_neg fun hbytes => hmore (Text.begins_with_bytes_iff.1 hbytes)]
    have hnot : covers top path = false := by
      rw [← Bool.not_eq_true, covers_iff_toList]
      rintro (hpath | ⟨rest, hpath⟩)
      · exact hsame (String.toList_inj.1 hpath)
      · exact hmore ⟨'.', rest, hpath⟩
    rw [hnot]

end Path

namespace Changes

variable {changes : Changes}

theorem touches_eq_true_iff {path : String} :
    changes.touches path = true ↔
      ∃ d ∈ changes.differences, d.path = "" ∨ Path.segments path <+: Path.segments d.path := by
  simp only [touches, List.any_eq_true, Bool.or_eq_true, String.isEmpty_iff,
    Path.covers_iff_segments]

theorem touchesBeyond_eq_false_iff {paths : List String} :
    changes.touchesBeyond paths = false ↔
      ∀ d ∈ changes.differences,
        d.path ≠ "" ∧ ∃ path ∈ paths, Path.segments path <+: Path.segments d.path := by
  simp only [touchesBeyond, List.any_eq_false, Bool.or_eq_true, not_or, String.isEmpty_iff,
    Bool.not_eq_true', Path.covers_iff_segments, not_forall, not_not, exists_prop, ne_eq]

/-- A path covers those whose first segments are its own.  The test for this on bytes looks at no
byte outside of a text or within a character.  Both questions about changes are answered by
segments alone. -/
theorem path_queries_follow_segments :
    (∀ top path : String, Path.coversByBytes top path = .ok (Path.covers top path) ∧
        (Path.covers top path = true ↔ Path.segments top <+: Path.segments path)) ∧
      ∀ changes : Changes,
        (∀ path, changes.touches path = true ↔
          ∃ d ∈ changes.differences,
            d.path = "" ∨ Path.segments path <+: Path.segments d.path) ∧
        ∀ paths, changes.touchesBeyond paths = false ↔
          ∀ d ∈ changes.differences,
            d.path ≠ "" ∧ ∃ path ∈ paths, Path.segments path <+: Path.segments d.path :=
  ⟨fun top path => ⟨Path.coversByBytes_eq top path, Path.covers_iff_segments⟩,
    fun _ => ⟨fun _ => touches_eq_true_iff, fun _ => touchesBeyond_eq_false_iff⟩⟩

end Changes
end DbSteward
