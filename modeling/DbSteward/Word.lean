/-!
# Signed words

Integers as signed machine words of 64 bits.
-/

namespace DbSteward
namespace Word

def ofInt? (i : Int) : Option Int64 :=
  if Int64.minValue.toInt ≤ i ∧ i ≤ Int64.maxValue.toInt then some (Int64.ofInt i) else none

end Word
end DbSteward
