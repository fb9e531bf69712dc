/-!
# Parts of a text

Prefixes, occurrences and separated parts of a text, taken on its list of
characters.
-/

namespace DbSteward
namespace Text

/-- What follows `front` in a text that begins with it. -/
def after? : List Char → List Char → Option (List Char)
  | [], text => some text
  | _ :: _, [] => none
  | c :: front, d :: text => if c = d then after? front text else none

theorem after?_eq_some_iff {front text rest : List Char} :
    after? front text = some rest ↔ text = front ++ rest := by
  induction front generalizing text with
  | nil => simp [after?, eq_comm]
  | cons c front ih =>
      cases text with
      | nil => simp [after?]
      | cons d text =>
          by_cases hcd : c = d
          · subst hcd
            simp [after?, ih]
          · simp [after?, hcd, Ne.symm hcd]

def startsWith (text front : String) : Bool :=
  (after? front.toList text.toList).isSome

def occursIn (needle : List Char) : List Char → Bool
  | [] => needle.isEmpty
  | c :: text => (after? needle (c :: text)).isSome || occursIn needle text

def mentions (text needle : String) : Bool :=
  occursIn needle.toList text.toList

/-- The parts of a list of characters between the occurrences of `mark`; a text
without the mark is its only part. -/
def parts (mark : Char) : List Char → List (List Char)
  | [] => [[]]
  | c :: text =>
      if c = mark then [] :: parts mark text
      else
        match parts mark text with
        | [] => [[c]]
        | part :: others => (c :: part) :: others

theorem parts_ne_nil (mark : Char) (text : List Char) : parts mark text ≠ [] := by
  cases text with
  | nil => simp [parts]
  | cons c text =>
      unfold parts
      split
      · simp
      · split <;> simp

end Text
end DbSteward
