import WasmCheck.Instr.Memory

/-!
# Instructions

A body is a flat list of instructions. Five of them are markers that open, divide and close control
constructs. The others are operations. Most operations have one function type once the module and
the local variables are known; the remaining ones branch, or take an operand of any type.
-/

namespace WasmCheck

inductive TableOp where
  | get (table : UInt32)
  | set (table : UInt32)
  | size (table : UInt32)
  | grow (table : UInt32)
  | fill (table : UInt32)
  | copy (dst src : UInt32)
  | init (table segment : UInt32)
  | dropSegment (segment : UInt32)
deriving DecidableEq, Repr

/-- The operations that have one function type in a given context. -/
inductive FixedOp where
  | call (function : UInt32)
  | callIndirect (type table : UInt32)
  | selectTyped (t : ValueType)
  | localGet (i : UInt32)
  | localSet (i : UInt32)
  | localTee (i : UInt32)
  | globalGet (i : UInt32)
  | globalSet (i : UInt32)
  | table (o : TableOp)
  | refNull (t : RefType)
  | refFunc (function : UInt32)
  | load (o : LoadOp) (arg : MemArg)
  | store (o : StoreOp) (arg : MemArg)
  | memorySize
  | memoryGrow
  | i32Const (bits : UInt32)
  | i64Const (bits : UInt64)
  | f32Const (bits : UInt32)
  | f64Const (bits : UInt64)
  | numeric (o : NumericOp)
deriving DecidableEq, Repr

/-- The instructions that hold no other instructions. -/
inductive Op where
  | unreachable
  | nop
  | br (label : UInt32)
  | brIf (label : UInt32)
  | brTable (labels : List UInt32) (default_ : UInt32)
  | return_
  | drop
  | select
  | refIsNull
  | fixed (o : FixedOp)
deriving DecidableEq, Repr

inductive Instr where
  | block (t : BlockType)
  | loop (t : BlockType)
  | if_ (t : BlockType)
  | else_
  | end_
  | op (o : Op)
deriving DecidableEq, Repr

namespace TableOp

def name : TableOp → String
  | get _ => "table.get"
  | set _ => "table.set"
  | size _ => "table.size"
  | grow _ => "table.grow"
  | fill _ => "table.fill"
  | copy .. => "table.copy"
  | init .. => "table.init"
  | dropSegment _ => "elem.drop"

/-- The callback of a reader that has met the instruction. -/
def callback : TableOp → String
  | get _ => "OnTableGetExpr"
  | set _ => "OnTableSetExpr"
  | size _ => "OnTableSizeExpr"
  | grow _ => "OnTableGrowExpr"
  | fill _ => "OnTableFillExpr"
  | copy .. => "OnTableCopyExpr"
  | init .. => "OnTableInitExpr"
  | dropSegment _ => "OnElemDropExpr"

end TableOp

namespace FixedOp

def name : FixedOp → String
  | call _ => "call"
  | callIndirect .. => "call_indirect"
  | selectTyped _ => "select"
  | localGet _ => "local.get"
  | localSet _ => "local.set"
  | localTee _ => "local.tee"
  | globalGet _ => "global.get"
  | globalSet _ => "global.set"
  | table o => o.name
  | refNull _ => "ref.null"
  | refFunc _ => "ref.func"
  | load o _ => o.name
  | store o _ => o.name
  | memorySize => "memory.size"
  | memoryGrow => "memory.grow"
  | i32Const _ => "i32.const"
  | i64Const _ => "i64.const"
  | f32Const _ => "f32.const"
  | f64Const _ => "f64.const"
  | numeric o => o.name

def callback : FixedOp → String
  | call _ => "OnCallExpr"
  | callIndirect .. => "OnCallIndirectExpr"
  | selectTyped _ => "OnSelectExpr"
  | localGet _ => "OnLocalGetExpr"
  | localSet _ => "OnLocalSetExpr"
  | localTee _ => "OnLocalTeeExpr"
  | globalGet _ => "OnGlobalGetExpr"
  | globalSet _ => "OnGlobalSetExpr"
  | table o => o.callback
  | refNull _ => "OnRefNullExpr"
  | refFunc _ => "OnRefFuncExpr"
  | load .. => "OnLoadExpr"
  | store .. => "OnStoreExpr"
  | memorySize => "OnMemorySizeExpr"
  | memoryGrow => "OnMemoryGrowExpr"
  | i32Const _ => "OnI32ConstExpr"
  | i64Const _ => "OnI64ConstExpr"
  | f32Const _ => "OnF32ConstExpr"
  | f64Const _ => "OnF64ConstExpr"
  | numeric o => o.class_.callback

end FixedOp

namespace Op

def name : Op → String
  | unreachable => "unreachable"
  | nop => "nop"
  | br _ => "br"
  | brIf _ => "br_if"
  | brTable .. => "br_table"
  | return_ => "return"
  | drop => "drop"
  | select => "select"
  | refIsNull => "ref.is_null"
  | fixed o => o.name

def callback : Op → String
  | unreachable => "OnUnreachableExpr"
  | nop => "OnNopExpr"
  | br _ => "OnBrExpr"
  | brIf _ => "OnBrIfExpr"
  | brTable .. => "OnBrTableExpr"
  | return_ => "OnReturnExpr"
  | drop => "OnDropExpr"
  | select => "OnSelectExpr"
  | refIsNull => "OnRefIsNullExpr"
  | fixed o => o.callback

end Op

namespace Instr

def name : Instr → String
  | block _ => "block"
  | loop _ => "loop"
  | if_ _ => "if"
  | else_ => "else"
  | end_ => "end"
  | op o => o.name

def callback : Instr → String
  | block _ => "OnBlockExpr"
  | loop _ => "OnLoopExpr"
  | if_ _ => "OnIfExpr"
  | else_ => "OnElseExpr"
  | end_ => "OnEndExpr"
  | op o => o.callback

def tableOp? : Instr → Option TableOp
  | op (.fixed (.table o)) => some o
  | _ => none

theorem tableOp?_eq_some_iff {i : Instr} {o : TableOp} :
    i.tableOp? = some o ↔ i = .op (.fixed (.table o)) := by
  constructor
  · intro h
    unfold tableOp? at h
    split at h
    · cases h
      rfl
    · cases h
  · rintro rfl
    rfl

theorem tableOp?_eq_none_iff {i : Instr} :
    i.tableOp? = none ↔ ∀ o, i ≠ .op (.fixed (.table o)) := by
  rw [Option.eq_none_iff_forall_ne_some]
  exact forall_congr' fun o => not_congr tableOp?_eq_some_iff

end Instr

end WasmCheck
