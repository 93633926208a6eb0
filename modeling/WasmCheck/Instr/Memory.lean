import WasmCheck.Instr.Numeric

/-!
# Memory accesses

Loads and stores: of a whole number, or of the low bits of an integer. The width of an access bounds
the alignment it may declare.
-/

namespace WasmCheck

/-- The immediate of a memory access: the alignment as a power of two, and an address offset. -/
structure MemArg where
  align : UInt32
  offset : UInt64
deriving DecidableEq, Repr

def IntType.log2Bytes : IntType → Nat
  | i32 => 2
  | i64 => 3

def FloatType.log2Bytes : FloatType → Nat
  | f32 => 2
  | f64 => 3

inductive LoadOp where
  | int (t : IntType)
  | float (t : FloatType)
  | narrow32 (w : Narrow32) (s : Signedness)
  | narrow64 (w : Narrow64) (s : Signedness)
deriving DecidableEq, Repr

namespace LoadOp

def name : LoadOp → String
  | int t => t.toValueType.name ++ ".load"
  | float t => t.toValueType.name ++ ".load"
  | narrow32 w s => "i32.load" ++ w.name ++ s.suffix
  | narrow64 w s => "i64.load" ++ w.name ++ s.suffix

def type : LoadOp → ValueType
  | int t => t.toValueType
  | float t => t.toValueType
  | narrow32 .. => .i32
  | narrow64 .. => .i64

/-- The binary logarithm of the width of the access in bytes. -/
def log2Width : LoadOp → Nat
  | int t => t.log2Bytes
  | float t => t.log2Bytes
  | narrow32 w _ => w.log2Bytes
  | narrow64 w _ => w.log2Bytes

def all : List LoadOp :=
  [int .i32, int .i64, float .f32, float .f64] ++
    Narrow32.all.flatMap (fun w => Signedness.all.map (narrow32 w)) ++
    Narrow64.all.flatMap (fun w => Signedness.all.map (narrow64 w))

end LoadOp

inductive StoreOp where
  | int (t : IntType)
  | float (t : FloatType)
  | narrow32 (w : Narrow32)
  | narrow64 (w : Narrow64)
deriving DecidableEq, Repr

namespace StoreOp

def name : StoreOp → String
  | int t => t.toValueType.name ++ ".store"
  | float t => t.toValueType.name ++ ".store"
  | narrow32 w => "i32.store" ++ w.name
  | narrow64 w => "i64.store" ++ w.name

def type : StoreOp → ValueType
  | int t => t.toValueType
  | float t => t.toValueType
  | narrow32 _ => .i32
  | narrow64 _ => .i64

def log2Width : StoreOp → Nat
  | int t => t.log2Bytes
  | float t => t.log2Bytes
  | narrow32 w => w.log2Bytes
  | narrow64 w => w.log2Bytes

def all : List StoreOp :=
  [int .i32, int .i64, float .f32, float .f64] ++ Narrow32.all.map narrow32 ++
    Narrow64.all.map narrow64

end StoreOp

end WasmCheck
