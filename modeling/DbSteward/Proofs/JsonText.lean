import DbSteward.Proofs.Codec
import DbSteward.Proofs.Literal

/-!
# Compact text reads back

A value whose numbers read back from their literals reads back from its compact text.  Text
literals are read piece by piece, one piece for each character that was written.  For arrays and
objects the proof goes by the fuel of the reader, of which two units for each character of the
text are enough.
-/

namespace DbSteward
namespace Json

/-! ## Text literals -/

theorem codeUnit?_hexDigit {n : Nat} (hless : n < 32) :
    codeUnit? '0' '0' (hexDigit (n / 16)) (hexDigit (n % 16)) = some n := by
  have hall : ∀ n < 32, codeUnit? '0' '0' (hexDigit (n / 16)) (hexDigit (n % 16)) = some n := by
    decide
  exact hall n hless

theorem spell_unit {n : Nat} (hless : n < 0xD800) (pieces : List Piece) :
    spell (.unit n :: pieces) = (spell pieces).map (Char.ofNat n :: ·) := by
  have hhigh : isHighSurrogate n = false := by simp [isHighSurrogate]; omega
  have hlow : isLowSurrogate n = false := by simp [isLowSurrogate]; omega
  match pieces with
  | [] => simp [spell, hhigh, hlow]
  | .char c :: pieces => simp [spell, hhigh, hlow]
  | .unit m :: pieces => simp [spell, hhigh, hlow]

theorem pieces?_escaped {c d : Char} (hne : d ≠ 'u') (hescaped : escaped? d = some c)
    (cs : List Char) :
    pieces? ('\\' :: d :: cs) =
      (pieces? cs).map fun (pieces, rest) => (.char c :: pieces, rest) := by
  rw [pieces?]
  · rw [hescaped]
    cases pieces? cs <;> rfl
  · exact fun _ _ _ _ _ heq => absurd heq hne

theorem pieces?_plain {c : Char} (hquote : c ≠ '"') (hslash : c ≠ '\\') (hplain : 0x20 ≤ c.toNat)
    (cs : List Char) :
    pieces? (c :: cs) = (pieces? cs).map fun (pieces, rest) => (.char c :: pieces, rest) := by
  rw [pieces?]
  · rw [if_neg (by simp [hslash]; omega)]
    cases pieces? cs <;> rfl
  · exact hquote
  · exact fun _ _ _ _ _ heq => absurd heq hslash
  · exact fun _ _ heq => absurd heq hslash

/-- The escape of a character is read as the piece, which spells the character. -/
structure PieceOf (c : Char) (p : Piece) : Prop where
  read : ∀ cs, pieces? (escape c ++ cs) =
    (pieces? cs).map fun (pieces, rest) => (p :: pieces, rest)
  spell : ∀ pieces, spell (p :: pieces) = (spell pieces).map (c :: ·)

theorem exists_pieceOf (c : Char) : ∃ p, PieceOf c p := by
  have hmarked : ∀ d, d ≠ 'u' → escaped? d = some c → escape c = ['\\', d] → ∃ p, PieceOf c p :=
    fun d hne hescaped heq =>
      ⟨.char c, fun cs => heq ▸ pieces?_escaped hne hescaped cs, fun _ => rfl⟩
  by_cases hquote : c = '"'
  · subst hquote
    exact hmarked '"' (by decide) rfl rfl
  by_cases hslash : c = '\\'
  · subst hslash
    exact hmarked '\\' (by decide) rfl rfl
  by_cases hline : c = '\n'
  · subst hline
    exact hmarked 'n' (by decide) rfl rfl
  by_cases hreturn : c = '\r'
  · subst hreturn
    exact hmarked 'r' (by decide) rfl rfl
  by_cases htab : c = '\t'
  · subst htab
    exact hmarked 't' (by decide) rfl rfl
  by_cases hback : c = '\x08'
  · subst hback
    exact hmarked 'b' (by decide) rfl rfl
  by_cases hfeed : c = '\x0c'
  · subst hfeed
    exact hmarked 'f' (by decide) rfl rfl
  have hescape : escape c = if c.toNat < 0x20 then
      ['\\', 'u', '0', '0', hexDigit (c.toNat / 16), hexDigit (c.toNat % 16)] else [c] := by
    simp [escape, hquote, hslash, hline, hreturn, htab, hback, hfeed]
  by_cases hcontrol : c.toNat < 0x20
  · refine ⟨.unit c.toNat, fun cs => ?_, fun pieces => ?_⟩
    · rw [hescape, if_pos hcontrol]
      simp only [List.cons_append, List.nil_append, pieces?, codeUnit?_hexDigit hcontrol]
      cases pieces? cs <;> rfl
    · rw [spell_unit (by omega), Char.ofNat_toNat]
  · refine ⟨.char c, fun cs => ?_, fun _ => rfl⟩
    rw [hescape, if_neg hcontrol]
    exact pieces?_plain hquote hslash (Nat.not_lt.1 hcontrol) cs

theorem exists_pieces (s rest : List Char) :
    ∃ pieces, pieces? (s.flatMap escape ++ '"' :: rest) = some (pieces, rest) ∧
      spell pieces = some s := by
  induction s with
  | nil => exact ⟨[], rfl, rfl⟩
  | cons c s ih =>
      obtain ⟨p, hp⟩ := exists_pieceOf c
      obtain ⟨pieces, hpieces, hs⟩ := ih
      refine ⟨p :: pieces, ?_, ?_⟩
      · rw [List.flatMap_cons, List.append_assoc, hp.read, hpieces]
        rfl
      · rw [hp.spell, hs]
        rfl

/-! ## Values -/

/-- The literal that is written for a real number is read as that number. -/
def RealReadsBack (x : Binary64) : Prop :=
  number? (realText x) = some (.real x, [])

/-- A value that is read from its compact text: its integers fit a word, with a sign or without,
and its real numbers read back from their literals. -/
inductive Legible : Json → Prop
  | null : Legible .null
  | flag (b : Bool) : Legible (.flag b)
  | integer {i : Int} (hlower : -2 ^ 63 ≤ i) (hupper : i < 2 ^ 64) : Legible (.integer i)
  | real {x : Binary64} (hread : RealReadsBack x) : Legible (.real x)
  | text (s : String) : Legible (.text s)
  | array {items : List Json} (hitems : ∀ item ∈ items, Legible item) : Legible (.array items)
  | object {members : List (String × Json)} (hmembers : ∀ member ∈ members, Legible member.2) :
      Legible (.object members)

theorem skipSpace_cons {c : Char} (hspace : isSpace c = false) (cs : List Char) :
    skipSpace (c :: cs) = c :: cs := by
  simp [skipSpace, hspace]

/-- A number literal begins with its sign or a digit. -/
theorem head_of_number? {cs left : List Char} {j : Json} (hread : number? cs = some (j, left)) :
    ∃ c cs', cs = c :: cs' ∧ (c = '-' ∨ c.isDigit = true) := by
  cases cs with
  | nil => cases hread
  | cons c cs =>
      refine ⟨c, cs, rfl, ?_⟩
      by_contra hother
      obtain ⟨hminus, hdigit⟩ := not_or.1 hother
      simp [number?_of_ne hminus, unsignedNumber?, wholeDigits?, digits, hdigit] at hread

theorem isSpace_of_number {c : Char} (hhead : c = '-' ∨ c.isDigit = true) :
    isSpace c = false := by
  rw [Bool.eq_false_iff]
  intro hspace
  simp only [isSpace, Bool.or_eq_true, beq_iff_eq] at hspace
  rcases hspace with ((rfl | rfl) | rfl) | rfl <;> exact absurd hhead (by decide)

theorem value?_of_number? {cs left : List Char} {j : Json} (fuel : Nat)
    (hread : number? cs = some (j, left)) : value? (fuel + 1) cs = some (j, left) := by
  obtain ⟨c, cs, rfl, hhead⟩ := head_of_number? hread
  rw [value?, skipSpace_cons (isSpace_of_number hhead)]
  split
  case h_7 => exact hread
  -- every other value begins with a character that no number begins with
  all_goals
    rename_i heq
    exact absurd ((List.cons.inj heq).1 ▸ hhead) (by decide)

/-- The text begins with no space and does not end an array. -/
def Opens (cs : List Char) : Prop :=
  ∃ c cs', cs = c :: cs' ∧ isSpace c = false ∧ c ≠ ']'

theorem Opens.append {cs : List Char} (hopens : Opens cs) (rest : List Char) :
    Opens (cs ++ rest) := by
  obtain ⟨c, cs', rfl, hspace, hne⟩ := hopens
  exact ⟨c, cs' ++ rest, rfl, hspace, hne⟩

theorem opens_of_number? {cs left : List Char} {j : Json} (hread : number? cs = some (j, left)) :
    Opens cs := by
  obtain ⟨c, cs', rfl, hhead⟩ := head_of_number? hread
  refine ⟨c, cs', rfl, isSpace_of_number hhead, ?_⟩
  rintro rfl
  exact absurd hhead (by decide)

theorem Legible.opens {j : Json} (hlegible : j.Legible) : Opens (compactChars j) := by
  cases hlegible with
  | null => exact ⟨'n', _, rfl, by decide, by decide⟩
  | flag b =>
      cases b with
      | false => exact ⟨'f', _, rfl, by decide, by decide⟩
      | true => exact ⟨'t', _, rfl, by decide, by decide⟩
  | integer hlower hupper => exact opens_of_number? (number?_decimalInt hlower hupper)
  | real hread => exact opens_of_number? hread
  | text s => exact ⟨'"', _, rfl, by decide, by decide⟩
  | array hitems => exact ⟨'[', _, rfl, by decide, by decide⟩
  | object hmembers => exact ⟨'\x7b', _, rfl, by decide, by decide⟩

theorem opens_compactItems {items : List Json} (hsome : items ≠ [])
    (hitems : ∀ item ∈ items, item.Legible) : Opens (compactItems items) := by
  match items with
  | [] => exact absurd rfl hsome
  | [item] => exact (hitems item (List.mem_cons_self ..)).opens
  | item :: next :: items => exact (hitems item (List.mem_cons_self ..)).opens.append _

theorem length_compactChars_pos {j : Json} (hlegible : j.Legible) :
    0 < (compactChars j).length := by
  obtain ⟨c, cs, hcons, -⟩ := hlegible.opens
  rw [hcons]
  exact Nat.succ_pos _

/-- With this much fuel every text that is short enough is read. -/
structure ReadsWith (fuel : Nat) : Prop where
  value : ∀ {j : Json} {rest : List Char}, j.Legible → EndsNumber rest →
    2 * (compactChars j).length ≤ fuel → value? fuel (compactChars j ++ rest) = some (j, rest)
  items : ∀ {items : List Json} {rest : List Char}, items ≠ [] → (∀ item ∈ items, item.Legible) →
    2 * (compactItems items).length + 1 ≤ fuel →
      items? fuel (compactItems items ++ ']' :: rest) = some (items, rest)
  members : ∀ {members : List (String × Json)} {rest : List Char}, members ≠ [] →
    (∀ member ∈ members, member.2.Legible) →
    2 * (compactMembers members).length + 1 ≤ fuel →
      members? fuel (compactMembers members ++ '\x7d' :: rest) =
        some (members.map fun member => (some member.1, member.2), rest)

theorem readsWith_zero : ReadsWith 0 where
  value := fun hlegible _ hfuel => by
    have := length_compactChars_pos hlegible
    omega
  items := fun _ _ hfuel => by omega
  members := fun _ _ hfuel => by omega

section Step

variable {fuel : Nat} {rest : List Char}

/-- A list of items that is not empty is read after its opening bracket. -/
theorem ReadsWith.array_succ (hreads : ReadsWith fuel) {items : List Json} (hsome : items ≠ [])
    (hitems : ∀ item ∈ items, item.Legible)
    (hfuel : 2 * (compactItems items).length + 1 ≤ fuel) :
    value? (fuel + 1) ('[' :: (compactItems items ++ ']' :: rest)) =
      some (.array items, rest) := by
  obtain ⟨c, cs, hcons, hspace, hne⟩ := (opens_compactItems hsome hitems).append (']' :: rest)
  have hread : items? fuel (compactItems items ++ ']' :: rest) = some (items, rest) :=
    hreads.items hsome hitems hfuel
  rw [hcons] at hread ⊢
  rw [value?, skipSpace_cons (by decide)]
  simp only [skipSpace_cons hspace]
  split
  · exact absurd (List.cons.inj ‹_›).1 hne
  · rw [hread]
    rfl

theorem compactItems_cons (item next : Json) (items : List Json) :
    compactItems (item :: next :: items) =
      compactChars item ++ ',' :: compactItems (next :: items) := by
  rw [compactItems]
  exact List.cons_ne_nil _ _

theorem compactMembers_cons (member next : String × Json) (members : List (String × Json)) :
    compactMembers (member :: next :: members) =
      quoted member.1 ++
        ':' :: (compactChars member.2 ++ ',' :: compactMembers (next :: members)) := by
  rw [compactMembers]
  · simp
  · exact List.cons_ne_nil _ _

theorem quoted_append (name : String) (rest : List Char) :
    quoted name ++ rest = '"' :: (name.toList.flatMap escape ++ '"' :: rest) := by
  simp [quoted]

theorem exists_quote {members : List (String × Json)} (hsome : members ≠ []) (rest : List Char) :
    ∃ cs, compactMembers members ++ rest = '"' :: cs := by
  match members with
  | [] => exact absurd rfl hsome
  | [member] =>
      rw [compactMembers, List.append_assoc, quoted_append]
      exact ⟨_, rfl⟩
  | member :: next :: members =>
      rw [compactMembers_cons, List.append_assoc, quoted_append]
      exact ⟨_, rfl⟩

/-- Members that are read after an opening brace make an object. -/
theorem ReadsWith.object_succ (hreads : ReadsWith fuel) {members : List (String × Json)}
    (hsome : members ≠ []) (hmembers : ∀ member ∈ members, member.2.Legible)
    (hfuel : 2 * (compactMembers members).length + 1 ≤ fuel) :
    value? (fuel + 1) ('\x7b' :: (compactMembers members ++ '\x7d' :: rest)) =
      some (.object members, rest) := by
  have hkeys : ofMembers (members.map fun member => (some member.1, member.2)) =
      .object members := by
    have hall : (members.map fun member => (some member.1, member.2)).mapM
        (fun member => member.1.map fun key => (key, member.2)) = some members :=
      Codec.mapM_map_eq_some fun _ _ => rfl
    rw [ofMembers, hall]
  have hread : members? fuel (compactMembers members ++ '\x7d' :: rest) =
      some (members.map fun member => (some member.1, member.2), rest) :=
    hreads.members hsome hmembers hfuel
  obtain ⟨cs, hcons⟩ := exists_quote hsome ('\x7d' :: rest)
  rw [hcons] at hread ⊢
  rw [value?, skipSpace_cons (by decide)]
  simp only [skipSpace_cons (show isSpace '"' = false by decide)]
  split
  · exact absurd (List.cons.inj ‹_›).1 (by decide)
  · rw [hread, ← hkeys]
    rfl

theorem ReadsWith.value_succ (hreads : ReadsWith fuel) {j : Json} (hlegible : j.Legible)
    (hend : EndsNumber rest) (hfuel : 2 * (compactChars j).length ≤ fuel + 1) :
    value? (fuel + 1) (compactChars j ++ rest) = some (j, rest) := by
  cases hlegible with
  | null => rfl
  | flag b => cases b <;> rfl
  | integer hlower hupper =>
      exact value?_of_number? fuel (number?_append hend (number?_decimalInt hlower hupper))
  | real hread => exact value?_of_number? fuel (number?_append hend hread)
  | text s =>
      obtain ⟨pieces, hpieces, hspell⟩ := exists_pieces s.toList rest
      have htext : compactChars (.text s) ++ rest =
          '"' :: (s.toList.flatMap escape ++ '"' :: rest) := by
        simp [compactChars, leafText, quoted]
      rw [htext, value?, skipSpace_cons (by decide)]
      simp only [hpieces, hspell, Option.bind_eq_bind, Option.bind_some, ofSpelling,
        String.ofList_toList]
      rfl
  | @array items hitems =>
      rw [compactChars, List.cons_append, List.cons_append, List.append_assoc,
        List.singleton_append]
      rw [compactChars, List.length_append, List.length_cons, List.length_singleton] at hfuel
      match items with
      | [] => rfl
      | item :: items => exact hreads.array_succ (List.cons_ne_nil _ _) hitems (by omega)
  | @object members hmembers =>
      rw [compactChars, List.cons_append, List.cons_append, List.append_assoc,
        List.singleton_append]
      rw [compactChars, List.length_append, List.length_cons, List.length_singleton] at hfuel
      match members with
      | [] => rfl
      | member :: members => exact hreads.object_succ (List.cons_ne_nil _ _) hmembers (by omega)

theorem ReadsWith.items_succ (hreads : ReadsWith fuel) {items : List Json} (hsome : items ≠ [])
    (hitems : ∀ item ∈ items, item.Legible)
    (hfuel : 2 * (compactItems items).length + 1 ≤ fuel + 1) :
    items? (fuel + 1) (compactItems items ++ ']' :: rest) = some (items, rest) := by
  have hcomma : isSpace ',' = false := by decide
  match items with
  | [] => exact absurd rfl hsome
  | [item] =>
      have hitem : value? fuel (compactChars item ++ ']' :: rest) = some (item, ']' :: rest) :=
        hreads.value (hitems item (List.mem_cons_self ..)) (endsNumber_cons (by decide) _)
          (by simpa [compactItems] using hfuel)
      rw [compactItems, items?, hitem]
      rfl
  | item :: next :: others =>
      rw [compactItems_cons, List.length_append, List.length_cons] at hfuel
      have hitem : value? fuel (compactChars item ++ ',' :: (compactItems (next :: others) ++
          ']' :: rest)) = some (item, ',' :: (compactItems (next :: others) ++ ']' :: rest)) :=
        hreads.value (hitems item (List.mem_cons_self ..)) (endsNumber_cons (by decide) _)
          (by omega)
      have hothers : items? fuel (compactItems (next :: others) ++ ']' :: rest) =
          some (next :: others, rest) :=
        hreads.items (List.cons_ne_nil _ _)
          (fun other hmem => hitems other (List.mem_cons_of_mem _ hmem)) (by omega)
      rw [compactItems_cons, List.append_assoc, List.cons_append, items?, hitem]
      simp only [Option.bind_eq_bind, Option.bind_some, skipSpace_cons hcomma, hothers]
      rfl

theorem members?_last (name : String) {value : Json} {tail : List Char}
    (hvalue : value? fuel tail = some (value, '\x7d' :: rest)) :
    members? (fuel + 1) (quoted name ++ ':' :: tail) = some ([(some name, value)], rest) := by
  obtain ⟨pieces, hpieces, hspell⟩ := exists_pieces name.toList (':' :: tail)
  rw [quoted_append, members?, skipSpace_cons (by decide)]
  simp only [hpieces, hspell, Option.bind_eq_bind, Option.bind_some,
    skipSpace_cons (show isSpace ':' = false by decide), hvalue, Option.map_some,
    String.ofList_toList]
  rfl

theorem members?_more (name : String) {value : Json} {tail after : List Char}
    {others : List (Option String × Json)}
    (hvalue : value? fuel tail = some (value, ',' :: after))
    (hothers : members? fuel after = some (others, rest)) :
    members? (fuel + 1) (quoted name ++ ':' :: tail) =
      some ((some name, value) :: others, rest) := by
  obtain ⟨pieces, hpieces, hspell⟩ := exists_pieces name.toList (':' :: tail)
  rw [quoted_append, members?, skipSpace_cons (by decide)]
  simp only [hpieces, hspell, Option.bind_eq_bind, Option.bind_some,
    skipSpace_cons (show isSpace ':' = false by decide),
    skipSpace_cons (show isSpace ',' = false by decide), hvalue, hothers, Option.map_some,
    String.ofList_toList]
  rfl

theorem ReadsWith.members_succ (hreads : ReadsWith fuel) {members : List (String × Json)}
    (hsome : members ≠ []) (hmembers : ∀ member ∈ members, member.2.Legible)
    (hfuel : 2 * (compactMembers members).length + 1 ≤ fuel + 1) :
    members? (fuel + 1) (compactMembers members ++ '\x7d' :: rest) =
      some (members.map fun member => (some member.1, member.2), rest) := by
  match members with
  | [] => exact absurd rfl hsome
  | [member] =>
      rw [compactMembers, List.length_append, List.length_cons] at hfuel
      have hvalue : value? fuel (compactChars member.2 ++ '\x7d' :: rest) =
          some (member.2, '\x7d' :: rest) :=
        hreads.value (hmembers member (List.mem_cons_self ..)) (endsNumber_cons (by decide) _)
          (by omega)
      rw [compactMembers, List.append_assoc, List.cons_append]
      exact members?_last member.1 hvalue
  | member :: next :: others =>
      rw [compactMembers_cons, List.length_append, List.length_cons, List.length_append,
        List.length_cons] at hfuel
      have hvalue : value? fuel (compactChars member.2 ++ ',' :: (compactMembers (next :: others) ++
          '\x7d' :: rest)) =
            some (member.2, ',' :: (compactMembers (next :: others) ++ '\x7d' :: rest)) :=
        hreads.value (hmembers member (List.mem_cons_self ..)) (endsNumber_cons (by decide) _)
          (by omega)
      have hothers : members? fuel (compactMembers (next :: others) ++ '\x7d' :: rest) = some
          ((next :: others).map fun member => (some member.1, member.2), rest) :=
        hreads.members (List.cons_ne_nil _ _)
          (fun other hmem => hmembers other (List.mem_cons_of_mem _ hmem)) (by omega)
      rw [compactMembers_cons, List.append_assoc, List.cons_append, List.append_assoc,
        List.cons_append]
      exact members?_more member.1 hvalue hothers

end Step

theorem readsWith (fuel : Nat) : ReadsWith fuel := by
  induction fuel with
  | zero => exact readsWith_zero
  | succ fuel ih => exact ⟨ih.value_succ, ih.items_succ, ih.members_succ⟩

theorem ofText?_compact {j : Json} (hlegible : j.Legible) : ofText? j.compact = some j := by
  have hread := (readsWith (2 * (compactChars j).length + 2)).value hlegible endsNumber_nil
    (Nat.le_add_right ..)
  rw [List.append_nil] at hread
  rw [compact, ofText?, String.toList_ofList]
  simp only [hread, Option.bind_eq_bind, Option.bind_some]
  rfl

end Json
end DbSteward
