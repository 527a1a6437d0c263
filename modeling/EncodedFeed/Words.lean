/-!
# Machine words

Sizes, times and depths are words of the machine.  Where a sum or product does not fit its word, the program either
goes on with what is left of it or is cut short, as it was built.  What can come to this is written down in both
ways: `align`, for one, wraps around, and `align?` has no result where a sum does not fit.  The checked way is the
one that counts; where it has a result, the other has the same one.  So whatever is said of a run without checks is
true of the checked run as far as that goes, and who keeps clear of the ends of words need not check.
-/

namespace EncodedFeed

/-- A number, if so many bits hold it without a sign. -/
def unsigned? (bits n : Nat) : Option Nat := if n < 1 <<< bits then some n else none

/-- A number, if so many bits hold it with a sign. -/
def signed? (bits : Nat) (n : Int) : Option Int :=
  if -((1 <<< (bits - 1) : Nat) : Int) ≤ n ∧ n < (1 <<< (bits - 1) : Nat) then some n else none

end EncodedFeed
