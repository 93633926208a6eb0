import WasmCheck.Body.Rules
import WasmCheck.Diagnostic
import WasmCheck.Config

/-!
# Checking a body

A checker is fed the instructions of a body one at a time. It remembers what they are checked
against, and the operand stack. A body is accepted if every instruction is, and if the last one
closes the function.
-/

namespace WasmCheck

open Stack

structure BodyChecker where
  context : Context
  stack : Stack
deriving DecidableEq, Repr

namespace BodyChecker

def start (m : Module) (t : FuncType) (groups : List LocalGroup) (config : Config) :
    Except Error BodyChecker := do
  let locals ← Locals.declare t.params groups config.maxLocals
  let (opened, s) :=
    (openFrame .function [] t.results).run (Stack.empty config.maxOperands config.maxFrames)
  opened
  return ⟨⟨m, locals, t.results⟩, s⟩

def finished (k : BodyChecker) : Bool := k.stack.depth == 0

def check (k : BodyChecker) (i : Instr) : Except Error Unit × BodyChecker :=
  let (r, s) := (i.check k.context).run k.stack
  (r, { k with stack := s })

/-- The callback that meets the instruction: the end that closes the function has one of its own. -/
def callback (k : BodyChecker) (i : Instr) : String :=
  if i = .end_ ∧ k.stack.depth = 1 then "EndFunctionBody" else i.callback

/-- Checks the instruction at an offset, and reports where and through which callback it failed. -/
def step (k : BodyChecker) (l : Located) : Except Diagnostic Unit × BodyChecker :=
  let (r, k') := k.check l.instr
  (r.mapError fun e => (Diagnostic.located l.offset e).through (k.callback l.instr), k')

/-- Checks instructions up to the first failure. -/
def steps (k : BodyChecker) : List Located → Except Diagnostic BodyChecker
  | [] => .ok k
  | l :: ls =>
    match k.step l with
    | (.ok (), k') => k'.steps ls
    | (.error d, _) => .error d

/-- The code may stop only once the body has been closed. -/
def finish (k : BodyChecker) (endOffset : Nat) : Except Diagnostic Unit :=
  if k.finished then .ok () else .error (.located endOffset .unclosedBody)

theorem steps_append (k : BodyChecker) (xs ys : List Located) :
    k.steps (xs ++ ys) = k.steps xs >>= fun k' => k'.steps ys := by
  induction xs generalizing k with
  | nil => rfl
  | cons x xs ih =>
    rw [List.cons_append, steps, steps]
    rcases k.step x with ⟨_ | _, k'⟩
    · rfl
    · exact ih k'

end BodyChecker

def Module.checkBody (m : Module) (config : Config) (b : FunctionBody) :
    Except Diagnostic Unit := do
  let t ← (m.funcType b.typeIndex).mapError fun e =>
    (Diagnostic.unlocated e).through "OnFunction"
  let k ← (BodyChecker.start m t b.locals config).mapError fun e =>
    (Diagnostic.unlocated e).through "OnLocalDeclCount"
  let k ← k.steps b.code
  k.finish b.endOffset

end WasmCheck
