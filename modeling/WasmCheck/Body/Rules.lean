import WasmCheck.Instr.Type
import WasmCheck.Stack.Ops

/-!
# Rules for instructions

What each instruction asks of the operand stack and what it does to it. An operation with one
function type pops its parameters and pushes its results. A jump makes the rest of its frame
unreachable. The markers open and close frames.

A rule that fails keeps what it has popped already; it fails with the first cause that it meets.
-/

namespace WasmCheck

open Stack

namespace FixedOp

/-- The type is found before the first operand is popped. -/
def check (c : Context) (o : FixedOp) : Check Unit := do
  let t ← Attempt.ofExcept (o.type c)
  popAll t.params o.name
  pushAll t.results

end FixedOp

namespace Op

def checkBr (label : UInt32) : Check Unit := do
  let ts ← labelTypes label
  popAll ts "br"
  markUnreachable

/-- A conditional jump hands on what the label carries. -/
def checkBrIf (label : UInt32) : Check Unit := do
  let _ ← pop .i32 "br_if"
  let ts ← labelTypes label
  popAll ts "br_if"
  pushAll ts

/-- All labels of a jump table carry as many operands as the default label, and the operands at hand
fit each of them. -/
def checkLabels (default_ : List ValueType) : List UInt32 → Check Unit
  | [] => pure ()
  | label :: labels => do
    let ts ← labelTypes label
    if ts.length ≠ default_.length then
      Attempt.fail (.branchArity (default_.map (·.name)) (ts.map (·.name)))
    peekAll ts "br_table"
    checkLabels default_ labels

def checkBrTable (labels : List UInt32) (default_ : UInt32) : Check Unit := do
  let _ ← pop .i32 "br_table"
  let ts ← labelTypes default_
  checkLabels ts labels
  peekAll ts "br_table"
  markUnreachable

/-- A selection without annotation is between two numbers of one type. The first operand whose type
is known decides which. -/
def checkSelect : Check Unit := do
  let _ ← pop .i32 "select"
  let s ← get
  match (s.operand? 0).bind (·.type?) <|> (s.operand? 1).bind (·.type?) with
  | some t =>
    if t.isRef then
      Attempt.fail (.selectReference t)
    popAll [t, t] "select"
    push t
  | none =>
    let _ ← popAny "select"
    let _ ← popAny "select"
    pushOperand .unknown

def check (c : Context) : Op → Check Unit
  | unreachable => markUnreachable
  | nop => pure ()
  | br label => checkBr label
  | brIf label => checkBrIf label
  | brTable labels default_ => checkBrTable labels default_
  | return_ => do
    popAll c.results "return"
    markUnreachable
  | drop => do
    let _ ← popAny "drop"
  | select => checkSelect
  | refIsNull => do
    let _ ← popReference "ref.is_null"
    push .i32
  | fixed o => o.check c

end Op

namespace Instr

def enter (kind : FrameKind) (t : FuncType) : Check Unit := do
  popAll t.params kind.name
  openFrame kind t.params t.results

/-- Goes over from the first branch of an if to the second, which starts with the same
parameters. -/
def switch : Check Unit := do
  let f ← closeFrame "if true branch"
  openFrame .else_ f.params f.results

def leave (desc : String) : Check Unit := do
  let f ← closeFrame desc
  pushAll f.results

/-- An if without an else has an empty second branch. The results of the function go to its
caller. -/
def checkEnd : Check Unit := do
  match (← currentFrame).kind with
  | .function =>
    let _ ← closeFrame "implicit return"
  | .block => leave "block"
  | .loop => leave "loop"
  | .else_ => leave "if false branch"
  | .if_ =>
    switch
    leave "if false branch"

def checkElse : Check Unit := do
  if (← currentFrame).kind ≠ .if_ then
    Attempt.fail .elseWithoutIf
  switch

def rule (c : Context) : Instr → Check Unit
  | block t => do enter .block (← Attempt.ofExcept (t.funcType c.module))
  | loop t => do enter .loop (← Attempt.ofExcept (t.funcType c.module))
  | if_ t => do
    let t ← Attempt.ofExcept (t.funcType c.module)
    let _ ← pop .i32 "if"
    enter .if_ t
  | else_ => checkElse
  | end_ => checkEnd
  | op o => o.check c

/-- No instruction may follow the end of the body. -/
def check (c : Context) (i : Instr) : Check Unit := do
  let _ ← currentFrame
  i.rule c

end Instr

end WasmCheck
