import TwoPass.Diagnostic

/-!
The error log of a run: errors and warnings in the order they came, with a limit on the former.
-/

namespace TwoPass

/-- A log of errors of the form `ε`. -/
structure ErrorLog (ε : Type) where
  limit : Int := 100
  errors : List ε := []
  warnings : List String := []
  deriving DecidableEq, Repr

namespace ErrorLog

variable {ε : Type}

def hasErrors (log : ErrorLog ε) : Bool :=
  !log.errors.isEmpty

def errorCount (log : ErrorLog ε) : Nat :=
  log.errors.length

def warningCount (log : ErrorLog ε) : Nat :=
  log.warnings.length

def add (log : ErrorLog ε) (error : ε) : ErrorLog ε :=
  { log with errors := log.errors ++ [error] }

def warn (log : ErrorLog ε) (message : String) : ErrorLog ε :=
  { log with warnings := log.warnings ++ [message] }

/-- The limit is looked at after an error has been added. -/
def isFull (log : ErrorLog ε) : Bool :=
  log.limit ≤ log.errors.length

/-- What ends a run whose log is full. -/
def overflow (log : ErrorLog ε) : Diagnostic :=
  { cause := .tooManyErrors (Cause.limitReached ++ " (" ++ Text.decimal log.limit ++ "), stopping") }

def clear (log : ErrorLog ε) : ErrorLog ε :=
  { log with errors := [], warnings := [] }

/-- A count with its noun in the singular or the plural. -/
def counted (n : Nat) (noun : String) : String :=
  Text.decimal n ++ " " ++ noun ++ (if n = 1 then "" else "s")

/-- All errors and warnings, and a line with their numbers. -/
def report (message : ε → String) (log : ErrorLog ε) : String :=
  let errors := log.errors.flatMap fun error => [message error, ""]
  let warnings :=
    if log.warnings.isEmpty then [] else "Warnings:" :: log.warnings.map ("  " ++ ·)
  let total :=
    "\n" ++ counted log.errorCount "error" ++ ", " ++ counted log.warningCount "warning"
  Text.joinWith "\n" (errors ++ warnings ++ [total])

end ErrorLog

end TwoPass
