import TwoPass.Text.Case

/-!
The registers and their numbers. The number seven is not in use.
-/

namespace TwoPass

def registers : List (String × Nat) :=
  [("A", 0), ("X", 1), ("L", 2), ("B", 3), ("S", 4), ("T", 5), ("F", 6), ("PC", 8), ("SW", 9)]

/-- The number of the register with a name in any letter case. -/
def registerNumber? (name : String) : Option Nat :=
  registers.lookup (Text.upper name)

def isRegister (name : String) : Bool :=
  (registerNumber? name).isSome

end TwoPass
