/-!
# Types

Value types, the reference types among them, function types, and the types a block may be
annotated with. Everything here is data of the type section; no check is made yet.
-/

namespace WasmCheck

inductive ValueType where
  | i32
  | i64
  | f32
  | f64
  | funcref
  | externref
deriving DecidableEq, Repr, Inhabited

inductive RefType where
  | funcref
  | externref
deriving DecidableEq, Repr, Inhabited

namespace RefType

def toValueType : RefType → ValueType
  | funcref => .funcref
  | externref => .externref

end RefType

namespace ValueType

def name : ValueType → String
  | i32 => "i32"
  | i64 => "i64"
  | f32 => "f32"
  | f64 => "f64"
  | funcref => "funcref"
  | externref => "externref"

def asRef : ValueType → Option RefType
  | funcref => some .funcref
  | externref => some .externref
  | _ => none

def isRef (t : ValueType) : Bool := t.asRef.isSome

def isNum (t : ValueType) : Bool := !t.isRef

theorem asRef_eq_some_iff {t : ValueType} {r : RefType} :
    t.asRef = some r ↔ t = r.toValueType := by
  cases t <;> cases r <;> simp [asRef, RefType.toValueType]

/-- The size of a value in linear memory, in bytes; references have none. -/
def byteSize : ValueType → Option Nat
  | i32 | f32 => some 4
  | i64 | f64 => some 8
  | funcref | externref => none

def toByte : ValueType → UInt8
  | i32 => 0x7F
  | i64 => 0x7E
  | f32 => 0x7D
  | f64 => 0x7C
  | funcref => 0x70
  | externref => 0x6F

def ofByte? (b : UInt8) : Option ValueType :=
  [i32, i64, f32, f64, funcref, externref].find? (·.toByte == b)

end ValueType

def RefType.name (r : RefType) : String := r.toValueType.name

/-- A list of names as messages show it: in brackets, separated by a comma and a blank. -/
def typeList (names : List String) : String := "[" ++ ", ".intercalate names ++ "]"

/-- The types a function takes and gives, the first one deepest on the stack. -/
structure FuncType where
  params : List ValueType
  results : List ValueType
deriving DecidableEq, Repr, Inhabited

def FuncType.text (t : FuncType) : String :=
  typeList (t.params.map (·.name)) ++ " -> " ++ typeList (t.results.map (·.name))

/-- The annotation of a block: no value, one result, or an entry of the type section. -/
inductive BlockType where
  | empty
  | result (t : ValueType)
  | index (i : UInt32)
deriving DecidableEq, Repr, Inhabited

end WasmCheck
