import WasmCheck.Types.Basic

/-!
# Numeric instructions

Arithmetic, comparisons and conversions, put together from an operand type and an operation. Each
of them takes one or two operands and gives one result, so that its type is all there is to check.
-/

namespace WasmCheck

inductive IntType where
  | i32
  | i64
deriving DecidableEq, Repr

inductive FloatType where
  | f32
  | f64
deriving DecidableEq, Repr

def IntType.toValueType : IntType → ValueType
  | i32 => .i32
  | i64 => .i64

def FloatType.toValueType : FloatType → ValueType
  | f32 => .f32
  | f64 => .f64

/-- How an integer is read: with a sign or without. -/
inductive Signedness where
  | signed
  | unsigned
deriving DecidableEq, Repr

def Signedness.suffix : Signedness → String
  | signed => "_s"
  | unsigned => "_u"

def Signedness.all : List Signedness := [signed, unsigned]

inductive Narrow32 where
  | w8
  | w16
deriving DecidableEq, Repr

inductive Narrow64 where
  | w8
  | w16
  | w32
deriving DecidableEq, Repr

namespace Narrow32

def log2Bytes : Narrow32 → Nat
  | w8 => 0
  | w16 => 1

def name : Narrow32 → String
  | w8 => "8"
  | w16 => "16"

def all : List Narrow32 := [w8, w16]

end Narrow32

namespace Narrow64

def log2Bytes : Narrow64 → Nat
  | w8 => 0
  | w16 => 1
  | w32 => 2

def name : Narrow64 → String
  | w8 => "8"
  | w16 => "16"
  | w32 => "32"

def all : List Narrow64 := [w8, w16, w32]

end Narrow64

inductive IntCompare where
  | eq
  | ne
  | lt (s : Signedness)
  | gt (s : Signedness)
  | le (s : Signedness)
  | ge (s : Signedness)
deriving DecidableEq, Repr

namespace IntCompare

def name : IntCompare → String
  | eq => "eq"
  | ne => "ne"
  | lt s => "lt" ++ s.suffix
  | gt s => "gt" ++ s.suffix
  | le s => "le" ++ s.suffix
  | ge s => "ge" ++ s.suffix

def all : List IntCompare := [eq, ne] ++ [lt, gt, le, ge].flatMap Signedness.all.map

end IntCompare

inductive FloatCompare where
  | eq
  | ne
  | lt
  | gt
  | le
  | ge
deriving DecidableEq, Repr

namespace FloatCompare

def name : FloatCompare → String
  | eq => "eq"
  | ne => "ne"
  | lt => "lt"
  | gt => "gt"
  | le => "le"
  | ge => "ge"

def all : List FloatCompare := [eq, ne, lt, gt, le, ge]

end FloatCompare

inductive IntUnary where
  | clz
  | ctz
  | popcnt
deriving DecidableEq, Repr

namespace IntUnary

def name : IntUnary → String
  | clz => "clz"
  | ctz => "ctz"
  | popcnt => "popcnt"

def all : List IntUnary := [clz, ctz, popcnt]

end IntUnary

inductive IntBinary where
  | add
  | sub
  | mul
  | div (s : Signedness)
  | rem (s : Signedness)
  | and
  | or
  | xor
  | shl
  | shr (s : Signedness)
  | rotl
  | rotr
deriving DecidableEq, Repr

namespace IntBinary

def name : IntBinary → String
  | add => "add"
  | sub => "sub"
  | mul => "mul"
  | div s => "div" ++ s.suffix
  | rem s => "rem" ++ s.suffix
  | and => "and"
  | or => "or"
  | xor => "xor"
  | shl => "shl"
  | shr s => "shr" ++ s.suffix
  | rotl => "rotl"
  | rotr => "rotr"

def all : List IntBinary :=
  [add, sub, mul] ++ [div, rem].flatMap Signedness.all.map ++ [and, or, xor, shl] ++
    Signedness.all.map shr ++ [rotl, rotr]

end IntBinary

inductive FloatUnary where
  | abs
  | neg
  | ceil
  | floor
  | trunc
  | nearest
  | sqrt
deriving DecidableEq, Repr

namespace FloatUnary

def name : FloatUnary → String
  | abs => "abs"
  | neg => "neg"
  | ceil => "ceil"
  | floor => "floor"
  | trunc => "trunc"
  | nearest => "nearest"
  | sqrt => "sqrt"

def all : List FloatUnary := [abs, neg, ceil, floor, trunc, nearest, sqrt]

end FloatUnary

inductive FloatBinary where
  | add
  | sub
  | mul
  | div
  | min
  | max
  | copysign
deriving DecidableEq, Repr

namespace FloatBinary

def name : FloatBinary → String
  | add => "add"
  | sub => "sub"
  | mul => "mul"
  | div => "div"
  | min => "min"
  | max => "max"
  | copysign => "copysign"

def all : List FloatBinary := [add, sub, mul, div, min, max, copysign]

end FloatBinary

inductive Conversion where
  /-- An `i64` cut down to an `i32`. -/
  | wrap
  | trunc (result : IntType) (operand : FloatType) (s : Signedness)
  /-- An `i32` widened to an `i64`. -/
  | extend (s : Signedness)
  | convert (result : FloatType) (operand : IntType) (s : Signedness)
  /-- An `f64` rounded to an `f32`. -/
  | demote
  /-- An `f32` widened to an `f64`. -/
  | promote
  /-- The bits of a float as an integer of the same width. -/
  | bitsOf (operand : FloatType)
  /-- The bits of an integer as a float of the same width. -/
  | ofBits (operand : IntType)
deriving DecidableEq, Repr

def FloatType.int : FloatType → IntType
  | f32 => .i32
  | f64 => .i64

def IntType.float : IntType → FloatType
  | i32 => .f32
  | i64 => .f64

namespace Conversion

def operand : Conversion → ValueType
  | wrap => .i64
  | trunc _ t _ => t.toValueType
  | extend _ => .i32
  | convert _ t _ => t.toValueType
  | demote => .f64
  | promote => .f32
  | bitsOf t => t.toValueType
  | ofBits t => t.toValueType

def result : Conversion → ValueType
  | wrap => .i32
  | trunc t _ _ => t.toValueType
  | extend _ => .i64
  | convert t _ _ => t.toValueType
  | demote => .f32
  | promote => .f64
  | bitsOf t => t.int.toValueType
  | ofBits t => t.float.toValueType

def verb : Conversion → String
  | wrap => "wrap"
  | trunc .. => "trunc"
  | extend _ => "extend"
  | convert .. => "convert"
  | demote => "demote"
  | promote => "promote"
  | bitsOf _ | ofBits _ => "reinterpret"

/-- The signedness of the integer that is read or made, where it matters. -/
def suffix : Conversion → String
  | trunc _ _ s | extend s | convert _ _ s => s.suffix
  | _ => ""

def name (c : Conversion) : String :=
  c.result.name ++ "." ++ c.verb ++ "_" ++ c.operand.name ++ c.suffix

def truncs (t : IntType) : List Conversion :=
  [.f32, .f64].flatMap fun u => Signedness.all.map (trunc t u)

def converts (t : FloatType) : List Conversion :=
  [.i32, .i64].flatMap fun u => Signedness.all.map (convert t u)

def all : List Conversion :=
  [wrap] ++ truncs .i32 ++ Signedness.all.map extend ++ truncs .i64 ++ converts .f32 ++ [demote] ++
    converts .f64 ++ [promote, bitsOf .f32, bitsOf .f64, ofBits .i32, ofBits .i64]

end Conversion

inductive NumericOp where
  | eqz (t : IntType)
  | intCompare (t : IntType) (c : IntCompare)
  | floatCompare (t : FloatType) (c : FloatCompare)
  | intUnary (t : IntType) (o : IntUnary)
  | intBinary (t : IntType) (o : IntBinary)
  | floatUnary (t : FloatType) (o : FloatUnary)
  | floatBinary (t : FloatType) (o : FloatBinary)
  | convert (c : Conversion)
  /-- The low bits of an `i32`, read with a sign. -/
  | extend32 (w : Narrow32)
  /-- The low bits of an `i64`, read with a sign. -/
  | extend64 (w : Narrow64)
deriving DecidableEq, Repr

/-- The families of numeric instructions that readers tell apart. -/
inductive NumericClass where
  | compare
  | unary
  | binary
  | convert
deriving DecidableEq, Repr

namespace NumericClass

def name : NumericClass → String
  | compare => "Compare"
  | unary => "Unary"
  | binary => "Binary"
  | convert => "Convert"

def callback (c : NumericClass) : String := "On" ++ c.name ++ "Expr"

end NumericClass

namespace NumericOp

def name : NumericOp → String
  | eqz t => t.toValueType.name ++ ".eqz"
  | intCompare t c => t.toValueType.name ++ "." ++ c.name
  | floatCompare t c => t.toValueType.name ++ "." ++ c.name
  | intUnary t o => t.toValueType.name ++ "." ++ o.name
  | intBinary t o => t.toValueType.name ++ "." ++ o.name
  | floatUnary t o => t.toValueType.name ++ "." ++ o.name
  | floatBinary t o => t.toValueType.name ++ "." ++ o.name
  | convert c => c.name
  | extend32 w => "i32.extend" ++ w.name ++ "_s"
  | extend64 w => "i64.extend" ++ w.name ++ "_s"

/-- A test for zero counts as a conversion: it takes one operand and gives a truth value. -/
def class_ : NumericOp → NumericClass
  | intCompare .. | floatCompare .. => .compare
  | intUnary .. | floatUnary .. | extend32 _ | extend64 _ => .unary
  | intBinary .. | floatBinary .. => .binary
  | eqz _ | convert _ => .convert

/-- The operand types, the last one on top. -/
def params : NumericOp → List ValueType
  | eqz t => [t.toValueType]
  | intCompare t _ => [t.toValueType, t.toValueType]
  | floatCompare t _ => [t.toValueType, t.toValueType]
  | intUnary t _ => [t.toValueType]
  | intBinary t _ => [t.toValueType, t.toValueType]
  | floatUnary t _ => [t.toValueType]
  | floatBinary t _ => [t.toValueType, t.toValueType]
  | convert c => [c.operand]
  | extend32 _ => [.i32]
  | extend64 _ => [.i64]

def result : NumericOp → ValueType
  | eqz _ | intCompare .. | floatCompare .. => .i32
  | intUnary t _ => t.toValueType
  | intBinary t _ => t.toValueType
  | floatUnary t _ => t.toValueType
  | floatBinary t _ => t.toValueType
  | convert c => c.result
  | extend32 _ => .i32
  | extend64 _ => .i64

def type (o : NumericOp) : FuncType := ⟨o.params, [o.result]⟩

/-- Every numeric instruction, in the order of the opcodes. -/
def all : List NumericOp :=
  [.i32, .i64].flatMap (fun t => eqz t :: IntCompare.all.map (intCompare t)) ++
  [.f32, .f64].flatMap (fun t => FloatCompare.all.map (floatCompare t)) ++
  [.i32, .i64].flatMap (fun t =>
    IntUnary.all.map (intUnary t) ++ IntBinary.all.map (intBinary t)) ++
  [.f32, .f64].flatMap (fun t =>
    FloatUnary.all.map (floatUnary t) ++ FloatBinary.all.map (floatBinary t)) ++
  Conversion.all.map convert ++ Narrow32.all.map extend32 ++ Narrow64.all.map extend64

end NumericOp

end WasmCheck
