import WasmCheck.Module.Basic

/-!
# Types of instructions

In the context of a body most instructions have one function type: the operands they take and the
results they give. Finding it looks up the indices of the instruction, and this is where a wrong
index, an immutable global or a wrong alignment is found; operands play no part yet.
-/

namespace WasmCheck

/-- What a body is checked against. -/
structure Context where
  module : Module
  locals : Locals
  /-- The results of the function. -/
  results : List ValueType
deriving DecidableEq, Repr

def BlockType.funcType (m : Module) : BlockType → Except Error FuncType
  | empty => .ok ⟨[], []⟩
  | result t => .ok ⟨[], [t]⟩
  | index i => m.funcType i

/-- There is a memory, and an access of width `2 ^ log2Width` is not aligned more strictly than
that. -/
def Module.checkAccess (m : Module) (log2Width : Nat) (arg : MemArg) : Except Error Unit := do
  let _ ← m.memory 0
  if log2Width < arg.align.toNat then .error (.invalidAlignment (1 <<< log2Width)) else .ok ()

/-- The type of a table instruction. Indices, offsets and lengths are words. -/
def TableOp.type (m : Module) : TableOp → Except Error FuncType
  | get i => do
    let t ← m.table i
    return ⟨[.i32], [t.element.toValueType]⟩
  | set i => do
    let t ← m.table i
    return ⟨[.i32, t.element.toValueType], []⟩
  | size i => do
    let _ ← m.table i
    return ⟨[], [.i32]⟩
  | grow i => do
    let t ← m.table i
    return ⟨[t.element.toValueType, .i32], [.i32]⟩
  | fill i => do
    let t ← m.table i
    return ⟨[.i32, t.element.toValueType, .i32], []⟩
  | copy dst src => do
    let d ← m.table dst
    let s ← m.table src
    if d.element = s.element then return ⟨[.i32, .i32, .i32], []⟩
    else .error (.typeMismatch "table.copy" [d.element.name] [s.element.name])
  | init i segment => do
    let t ← m.table i
    let s ← m.segment segment
    if t.element = s.type then return ⟨[.i32, .i32, .i32], []⟩
    else .error (.typeMismatch "table.init" [t.element.name] [s.type.name])
  | dropSegment segment => do
    let _ ← m.segment segment
    return ⟨[], []⟩

def FixedOp.type (c : Context) : FixedOp → Except Error FuncType
  | call i => c.module.functionType i
  | callIndirect i j => do
    let t ← c.module.table j
    if t.element = .funcref then
      let f ← c.module.funcType i
      return ⟨f.params ++ [.i32], f.results⟩
    else .error .indirectTable
  | selectTyped t => .ok ⟨[t, t, .i32], [t]⟩
  | localGet i => do
    let t ← c.locals.typeOf i
    return ⟨[], [t]⟩
  | localSet i => do
    let t ← c.locals.typeOf i
    return ⟨[t], []⟩
  | localTee i => do
    let t ← c.locals.typeOf i
    return ⟨[t], [t]⟩
  | globalGet i => do
    let g ← c.module.global i
    return ⟨[], [g.type]⟩
  | globalSet i => do
    let g ← c.module.global i
    if g.mutable then return ⟨[g.type], []⟩ else .error (.immutableGlobal i)
  | table o => o.type c.module
  | refNull t => .ok ⟨[], [t.toValueType]⟩
  | refFunc i => do
    let _ ← c.module.functionType i
    return ⟨[], [.funcref]⟩
  | load o arg => do
    c.module.checkAccess o.log2Width arg
    return ⟨[.i32], [o.type]⟩
  | store o arg => do
    c.module.checkAccess o.log2Width arg
    return ⟨[.i32, o.type], []⟩
  | memorySize => do
    let _ ← c.module.memory 0
    return ⟨[], [.i32]⟩
  | memoryGrow => do
    let _ ← c.module.memory 0
    return ⟨[.i32], [.i32]⟩
  | i32Const _ => .ok ⟨[], [.i32]⟩
  | i64Const _ => .ok ⟨[], [.i64]⟩
  | f32Const _ => .ok ⟨[], [.f32]⟩
  | f64Const _ => .ok ⟨[], [.f64]⟩
  | numeric o => .ok o.type

end WasmCheck
