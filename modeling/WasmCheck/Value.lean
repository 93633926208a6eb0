import WasmCheck.Error
import WasmCheck.Decimal.Shortest

/-!
# Runtime values

Numbers are words of bits without a sign; how the bits are read is up to whoever reads them.
References are null or an index.
-/

namespace WasmCheck

inductive Value where
  | i32 (bits : UInt32)
  | i64 (bits : UInt64)
  | f32 (bits : UInt32)
  | f64 (bits : UInt64)
  | funcref (index : Option UInt32)
  | externref (index : Option UInt32)
deriving DecidableEq, Repr, Inhabited

def RefType.null : RefType → Value
  | funcref => .funcref none
  | externref => .externref none

/-- The value a variable of the type starts with: zero or null. -/
def ValueType.initial : ValueType → Value
  | i32 => .i32 0
  | i64 => .i64 0
  | f32 => .f32 0
  | f64 => .f64 0
  | funcref => .funcref none
  | externref => .externref none

namespace Value

def type : Value → ValueType
  | i32 _ => .i32
  | i64 _ => .i64
  | f32 _ => .f32
  | f64 _ => .f64
  | funcref _ => .funcref
  | externref _ => .externref

@[simp] theorem type_null (r : RefType) : r.null.type = r.toValueType := by
  cases r <;> rfl

def isNull : Value → Bool
  | funcref none | externref none => true
  | _ => false

/-- Two values of one type that stand for the same thing: floats are compared as numbers, and all
NaNs count as one. -/
def same : Value → Value → Bool
  | i32 a, i32 b => a == b
  | i64 a, i64 b => a == b
  | f32 a, f32 b => Decimal.binary32.same a.toNat b.toNat
  | f64 a, f64 b => Decimal.binary64.same a.toNat b.toNat
  | funcref a, funcref b => a == b
  | externref a, externref b => a == b
  | _, _ => false

/-- The word of an `i32`, read without a sign as indices and lengths are. -/
def asU32 : Value → Except Error UInt32
  | i32 bits => .ok bits
  | v => .error (.notI32 v.type)

def asI32 (v : Value) : Except Error Int := v.asU32.map (·.toInt32.toInt)

def indexText : Option UInt32 → String
  | some i => toString i
  | none => "null"

/-- The type of the value and, behind a colon, the value: integers with a sign, floats with the
fewest digits that read back. -/
def text (v : Value) : String :=
  v.type.name ++ ":" ++
    match v with
    | i32 bits => toString bits.toInt32.toInt
    | i64 bits => toString bits.toInt64.toInt
    | f32 bits => Decimal.binary32.text bits.toNat
    | f64 bits => Decimal.binary64.text bits.toNat
    | funcref i => indexText i
    | externref i => indexText i

end Value

end WasmCheck
