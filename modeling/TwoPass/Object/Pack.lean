import TwoPass.Object.Record
import TwoPass.Statement.Basic

/-!
Packing object code into text records. A record is closed when the next code would overflow it, when the
next code does not follow on, and where storage is reserved. Code that is longer than a whole record is
cut into records of full length.
-/

namespace TwoPass

/-- Digits that a text record holds at most: an even number, and not zero. -/
structure RecordLimit where
  digits : Nat
  two_le : 2 ≤ digits
  even : digits % 2 = 0
  deriving DecidableEq, Repr

namespace RecordLimit

/-- Sixty digits, which are thirty bytes. -/
def standard : RecordLimit :=
  ⟨60, by decide, by decide⟩

def ofInt (n : Int) : Except Fault RecordLimit :=
  if h : 2 ≤ n.toNat ∧ n.toNat % 2 = 0 then .ok ⟨n.toNat, h.1, h.2⟩ else .error .recordLimit

end RecordLimit

/-- Records closed so far, and the code waiting to go into the next one. -/
structure RecordBuffer where
  limit : Nat
  records : List TextRecord := []
  start : Int := 0
  data : List Char := []
  deriving DecidableEq, Repr

namespace RecordBuffer

/-- The address after the waiting code. -/
def next (b : RecordBuffer) : Int :=
  b.start + (b.data.length / 2 : Nat)

/-- Closes the record with the waiting code, if there is any. -/
def flush (b : RecordBuffer) : RecordBuffer :=
  if b.data.isEmpty then b
  else { b with records := b.records ++ [⟨b.start, b.data⟩], data := [] }

/-- Cuts code into full records and a last one that is left open. -/
def cut (limit : Nat) (address : Int) (code : List Char) : List TextRecord × TextRecord :=
  if _h : 0 < limit ∧ limit < code.length then
    let (full, last) := cut limit (address + (limit / 2 : Nat)) (code.drop limit)
    (⟨address, code.take limit⟩ :: full, last)
  else
    ([], ⟨address, code⟩)
termination_by code.length
decreasing_by simp only [List.length_drop]; omega

/-- Whether code at an address has to begin a new record. -/
def breaks (b : RecordBuffer) (address : Int) (code : List Char) : Bool :=
  !b.data.isEmpty && (address != b.next || b.limit < b.data.length + code.length)

/-- Adds code at an address. -/
def append (b : RecordBuffer) (address : Int) (code : List Char) : RecordBuffer :=
  let b := if b.breaks address code then b.flush else b
  if code.isEmpty then
    b
  else if b.data.isEmpty then
    let (full, last) := cut b.limit address code
    { b with records := b.records ++ full, start := last.start, data := last.data }
  else
    { b with data := b.data ++ code }

/-- Adds a statement: remarks have no code, and a reservation closes the record. -/
def add (b : RecordBuffer) (s : Statement) : Except Fault RecordBuffer :=
  match s.body with
  | .remark => .ok b
  | .directive d _ =>
    if d.isReserve then
      .ok b.flush
    else
      (s.code).map fun code => if code.isEmpty then b else b.append s.offset code
  | .instruction _ =>
    (s.code).map fun code => if code.isEmpty then b else b.append s.offset code

/-- Adds statements in order. -/
def addAll (b : RecordBuffer) : List Statement → Except Fault RecordBuffer
  | [] => .ok b
  | s :: rest =>
    match b.add s with
    | .ok b => b.addAll rest
    | .error fault => .error fault

end RecordBuffer

/-- The object program of statements in source order. -/
def ObjectProgram.build (limit : RecordLimit) (statements : List Statement) (name : String)
    (start length : Int) : Except Fault ObjectProgram :=
  let buffer : RecordBuffer := { limit := limit.digits }
  (buffer.addAll statements).map fun b => { name, start, length, texts := b.flush.records }

end TwoPass
