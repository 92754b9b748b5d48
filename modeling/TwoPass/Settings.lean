import TwoPass.Operand.Number
import TwoPass.Text.Case

/-!
Settings of a run, their defaults, and how the environment changes them.
-/

namespace TwoPass

structure Settings where
  /-- Operands that do not suit an instruction are errors instead of warnings. -/
  strictOperands : Bool := false
  /-- Three-byte instructions may be given displacements relative to program counter or base. -/
  relativeAddressing : Bool := false
  /-- Errors after which a run stops. -/
  maxErrors : Int := 100
  /-- Digits of object code in a text record. -/
  recordLimit : Int := 60
  deriving DecidableEq, Repr

namespace Settings

/-- A switch in words or digits, in any letter case, blanks around it ignored. -/
def parseSwitch (text : String) : Option Bool :=
  let word := String.ofList (Text.lowerAscii (Text.trim text.toList))
  if ["1", "true", "yes", "on"].contains word then some true
  else if ["0", "false", "no", "off"].contains word then some false
  else none

/-- A limit below one counts as one. -/
def parseLimit (text : String) : Option Int :=
  (Number.parseSetting text).map (max 1)

/-! ## Environment -/

def strictVariable : String :=
  "SICXE_STRICT_OPERANDS"

def relativeVariable : String :=
  "SICXE_RELATIVE_ADDRESSING"

def errorsVariable : String :=
  "SICXE_MAX_ERRORS"

/-- Settings of an environment. Values that cannot be read are ignored. -/
def ofEnvironment (get? : String → Option String) : Settings :=
  let initial : Settings := {}
  { initial with
    strictOperands := ((get? strictVariable).bind parseSwitch).getD initial.strictOperands
    relativeAddressing :=
      ((get? relativeVariable).bind parseSwitch).getD initial.relativeAddressing
    maxErrors := ((get? errorsVariable).bind parseLimit).getD initial.maxErrors }

end Settings

end TwoPass
