import TwoPass.Text.Quoted

/-!
Faults: failures that are not tied to a place in the source. A diagnostic about a source line is a
different thing and has a module of its own.
-/

namespace TwoPass

/-- Why a file could not be read or written. -/
inductive FileFault
  | notFound (path : String)
  | isDirectory (path : String)
  | notDirectory (path : String)
  | nameTooLong (path : String)
  | other (text : String)
  deriving DecidableEq, Repr

def FileFault.message : FileFault → String
  | .notFound path => "[Errno 2] No such file or directory: " ++ Text.quoted path
  | .isDirectory path => "[Errno 21] Is a directory: " ++ Text.quoted path
  | .notDirectory path => "[Errno 20] Not a directory: " ++ Text.quoted path
  | .nameTooLong path => "[Errno 36] File name too long: " ++ Text.quoted path
  | .other text => text

/-- What the number of a register is needed for. -/
inductive RegisterUse
  /-- The address field of an instruction. -/
  | address
  /-- The upper half of a byte with two registers. -/
  | upperHalf
  /-- The lower half of a byte with two registers. -/
  | lowerHalf
  /-- The distance to a target. -/
  | distance
  deriving DecidableEq, Repr

/-- How the missing number of a register shows. -/
def RegisterUse.message : RegisterUse → String
  | .address => "unsupported operand type(s) for &=: 'NoneType' and 'int'"
  | .upperHalf => "unsupported operand type(s) for <<: 'NoneType' and 'int'"
  | .lowerHalf => "unsupported operand type(s) for |: 'int' and 'NoneType'"
  | .distance => "unsupported operand type(s) for -: 'NoneType' and 'int'"

inductive Fault
  /-- A literal of fewer than no bytes was asked for. -/
  | negativeWidth
  /-- The value of a literal needs more bytes than it has. -/
  | tooWide (text : String) (width : Nat)
  /-- A character literal without characters. -/
  | emptyCharacters
  /-- A character literal with a character of more than eight bits. -/
  | wideCharacter (text : String)
  /-- A hexadecimal literal with something else than hexadecimal digits. -/
  | badHexadecimal (text : String)
  /-- A count made of digits of which not all are decimal. -/
  | notCount (text : String)
  /-- A decimal numeral of more digits than may be read. -/
  | tooManyDigits (count : Nat)
  /-- A number whose decimal numeral has more digits than may be written. -/
  | overlongNumeral
  /-- A text record cannot hold an odd number of digits, or none. -/
  | recordLimit
  /-- The address of a statement was to be assigned a second time. -/
  | offsetFixed
  /-- Size or code of something that is not yet an instruction, a directive or a comment. -/
  | noBody
  | unknownFormat (format : Int)
  /-- A data directive that lost its operand. -/
  | missingOperand
  /-- A data directive whose operand is a register. -/
  | notData
  /-- An operand names a register that has no number. -/
  | unknownRegister (use : RegisterUse)
  /-- A statement has no operand at the place that is to be filled. -/
  | noSuchOperand
  /-- The flags of a statement that is no instruction. -/
  | noFlags (kind : String)
  /-- A path with a null character in it. -/
  | nullInPath
  | file (fault : FileFault)
  | badArgument (text : String)
  | unexpected (text : String)
  deriving DecidableEq, Repr

/-- Decimal numerals of more digits are neither read nor written. -/
def maxDigits : Nat := 4300

def Fault.message : Fault → String
  | .negativeWidth => "negative shift count"
  | .tooWide text width => text ++ " does not fit in " ++ Text.decimal width ++ " byte(s)"
  | .emptyCharacters => "empty character literal"
  | .wideCharacter text => "non 8-bit character in " ++ text
  | .badHexadecimal text => "invalid hexadecimal literal " ++ text
  | .notCount text => "invalid literal for int() with base 10: " ++ Text.quoted text
  | .tooManyDigits count =>
    "Exceeds the limit (" ++ Text.decimal maxDigits
      ++ " digits) for integer string conversion: value has " ++ Text.decimal count
      ++ " digits; use sys.set_int_max_str_digits() to increase the limit"
  | .overlongNumeral =>
    "Exceeds the limit (" ++ Text.decimal maxDigits
      ++ " digits) for integer string conversion; use sys.set_int_max_str_digits()"
      ++ " to increase the limit"
  | .recordLimit => "text record limit must be a positive even number of hex digits"
  | .offsetFixed => "statement offset is fixed once assigned"
  | .noBody => ""
  | .unknownFormat format => Text.decimal format
  | .missingOperand => "list index out of range"
  | .notData => "unsupported operand type(s) for &: 'str' and 'int'"
  | .unknownRegister use => use.message
  | .noSuchOperand => "list assignment index out of range"
  | .noFlags kind => "'" ++ kind ++ "' object has no attribute 'flags'"
  | .nullInPath => "embedded null byte"
  | .file fault => fault.message
  | .badArgument text => text
  | .unexpected text => text

end TwoPass
