import DbSteward.Text.Parts

/-!
# Engine versions

When an observed engine version satisfies a desired one, and when a version has to be
asked for.
-/

namespace DbSteward
namespace Version

/-- A version without the digits it ends in. -/
def series (version : String) : String :=
  String.ofList (version.toList.reverse.dropWhile Char.isDigit).reverse

/-- The version has to be asked for: minor upgrades do not happen by themselves, or the
series changes. -/
def mustRequest (desired observed : String) (autoMinor : Bool) : Bool :=
  !autoMinor || series desired != series observed

/-- The version to compare with the observed one.  An observed version that begins with
the desired one satisfies it. -/
def settled : Option String → Option String → Option String
  | some desired, some observed =>
      if Text.startsWith observed desired then some observed else some desired
  | desired, _ => desired

end Version
end DbSteward
