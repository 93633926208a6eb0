import WasmCheck.Types.Basic
import WasmCheck.Text.Hex

/-!
# Errors

What can go wrong, one constructor for each cause. A cause fixes the category, the numeric code
and the wording of the error, so that a condition reads the same wherever it is found.
-/

namespace WasmCheck

inductive Category where
  | resource
  | validation
  | type
  | runtime
  | capacity
  | runtimeTrap
deriving DecidableEq, Repr

namespace Category

def name : Category → String
  | resource => "Resource"
  | validation => "Validation"
  | type => "Type"
  | runtime => "Runtime"
  | capacity => "Capacity"
  | runtimeTrap => "RuntimeTrap"

def number : Category → Nat
  | resource => 3
  | validation => 5
  | type => 6
  | runtime => 7
  | capacity => 12
  | runtimeTrap => 13

instance : LE Category := ⟨fun a b => a.number ≤ b.number⟩

instance (a b : Category) : Decidable (a ≤ b) := inferInstanceAs (Decidable (a.number ≤ b.number))

end Category

inductive Error where
  /-- The operands do not have the types that `desc` asks for. -/
  | typeMismatch (desc : String) (expected got : List String)
  | localOutOfRange (count : UInt32)
  | indexOutOfRange (space : String) (index count : UInt32)
  | invalidDepth (depth : UInt32) (max : Nat)
  | immutableGlobal (index : UInt32)
  | invalidAlignment (natural : Nat)
  /-- A marker of a control construct stands where it may not. -/
  | controlMismatch (reason : String)
  | branchArity (expected got : List String)
  | indirectTable
  | selectReference (t : ValueType)
  | invalidTypeByte (byte : UInt8)
  | notReference (t : ValueType)
  | minAboveMax
  | initialPages (pages limit : UInt32)
  | maxPages (pages limit : UInt32)
  /-- A configured limit was reached. -/
  | limitExceeded (code : UInt16) (what : String) (max : Nat)
  | tooManyLocals (total : Nat)
  | stackUnderflow
  | notI32 (found : ValueType)
  | notTableInstr (name : String)
  | elementType (expected : RefType) (got : ValueType)
  | tableCopyTypes (src dst : RefType)
  | tableAccess (op : String) (index size : UInt32)
  | tableRange (op : String)
  | tableNotFound (index : UInt32)
  | segmentNotFound (index : UInt32)
  /-- A failure in words of the caller's own. -/
  | custom (category : Category) (code : UInt16) (message : String)
deriving DecidableEq, Repr

namespace Error

def operandOverflow (max : Nat) : Error := limitExceeded 4010 "operand stack overflow" max

def controlOverflow (max : Nat) : Error := limitExceeded 4011 "control stack overflow" max

def tableTooLarge (max : Nat) : Error := limitExceeded 4007 "table size" max

def afterEnd : Error := controlMismatch "unexpected instruction after end of function"

def elseWithoutIf : Error := controlMismatch "else expected if"

def unclosedBody : Error := controlMismatch "function body must end with END opcode"

def category : Error → Category
  | limitExceeded .. | tooManyLocals .. => .capacity
  | stackUnderflow => .runtime
  | notI32 .. | notTableInstr .. | elementType .. | tableCopyTypes .. => .type
  | tableAccess .. | tableRange .. => .runtimeTrap
  | tableNotFound .. | segmentNotFound .. => .resource
  | custom c _ _ => c
  | typeMismatch .. | localOutOfRange .. | indexOutOfRange .. | invalidDepth ..
  | immutableGlobal .. | invalidAlignment .. | controlMismatch .. | branchArity ..
  | indirectTable | selectReference .. | invalidTypeByte .. | notReference .. | minAboveMax
  | initialPages .. | maxPages .. => .validation

def code : Error → UInt16
  | stackUnderflow => 2000
  | notI32 .. | notTableInstr .. => 2001
  | tableAccess .. | tableRange .. => 2002
  | tableNotFound .. => 2003
  | segmentNotFound .. => 2004
  | elementType .. | tableCopyTypes .. => 2005
  | invalidTypeByte .. => 4000
  | typeMismatch .. | branchArity .. | indirectTable | selectReference .. => 4001
  | localOutOfRange .. => 4002
  | indexOutOfRange .. => 4003
  | invalidDepth .. => 4004
  | immutableGlobal .. => 4005
  | invalidAlignment .. => 4006
  | minAboveMax | initialPages .. | maxPages .. => 4007
  | controlMismatch .. => 4008
  | tooManyLocals .. => 4012
  | notReference .. => 4013
  | limitExceeded c _ _ => c
  | custom _ c _ => c

def message : Error → String
  | typeMismatch desc expected got =>
    s!"type mismatch in {desc}, expected {typeList expected} but got {typeList got}"
  | localOutOfRange count => s!"local variable out of range (max {count})"
  | indexOutOfRange space index count => s!"{space} variable out of range: {index} (max {count})"
  | invalidDepth depth max => s!"invalid depth: {depth} (max {max})"
  | immutableGlobal index => s!"can't global.set on immutable global at index {index}."
  | invalidAlignment natural =>
    s!"alignment must not be larger than natural alignment ({natural})"
  | controlMismatch reason => reason
  | branchArity expected got =>
    s!"br_table labels have inconsistent types: expected {typeList expected}, got {typeList got}"
  | indirectTable => "type mismatch: call_indirect must reference table of funcref type"
  | selectReference t =>
    s!"type mismatch in select, expected numeric operands but got [{t.name}]"
  | invalidTypeByte byte => "invalid value type byte: 0x" ++ Text.hex 2 byte.toNat
  | notReference t => s!"{t.name} is not a reference type"
  | minAboveMax => "size minimum must not be greater than maximum"
  | initialPages pages limit => s!"initial pages ({pages}) must be <= ({limit})"
  | maxPages pages limit => s!"max pages ({pages}) must be <= ({limit})"
  | limitExceeded _ what max => s!"{what} (max {max})"
  | tooManyLocals total => s!"local count too large: {total}"
  | stackUnderflow => "Stack underflow"
  | notI32 found => s!"expected i32, found {found.name}"
  | notTableInstr name => s!"{name} is not a table instruction"
  | elementType expected got => s!"type mismatch: expected {expected.name}, got {got.name}"
  | tableCopyTypes src dst =>
    s!"type mismatch in table.copy: {src.name} table into {dst.name} table"
  | tableAccess op index size =>
    s!"out of bounds table access: {op} at {index} >= max value {size}"
  | tableRange op => s!"out of bounds table access: {op} out of bounds"
  | tableNotFound index => s!"unknown table {index}"
  | segmentNotFound index => s!"unknown elem segment {index}"
  | custom _ _ message => message

/-- A static failure: a rule was broken or a configured limit reached. -/
def isValidation (e : Error) : Bool := e.category = .validation || e.category = .capacity

def isTrap (e : Error) : Bool := e.category = .runtimeTrap

def isType (e : Error) : Bool := e.category = .type

def isResource (e : Error) : Bool := e.category = .resource

/-- The full text of an error: category, code in hexadecimal, message. -/
def text (e : Error) : String :=
  "[" ++ e.category.name ++ "][E" ++ Text.hexUpper 4 e.code.toNat ++ "] " ++ e.message

end Error

end WasmCheck
