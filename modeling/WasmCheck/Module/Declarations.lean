import WasmCheck.Module.Basic
import WasmCheck.Diagnostic

/-!
# Declarations

The rules that a module keeps outside its code: functions have known types, sizes are in order, and
an element segment fits its table and lists known functions. A broken rule is reported without an
offset, through the callback that reads the declaration.
-/

namespace WasmCheck

/-- A check of every entry of a list. The first failure is reported through the callback. -/
def checkEach {α β : Type} (callback : String) (check : α → Except Error β) :
    List α → Except Diagnostic Unit
  | [] => .ok ()
  | a :: as =>
    match check a with
    | .ok _ => checkEach callback check as
    | .error e => .error ((Diagnostic.unlocated e).through callback)

theorem checkEach_eq_ok_iff {α β : Type} {callback : String} {check : α → Except Error β}
    {as : List α} : checkEach callback check as = .ok () ↔ ∀ a ∈ as, ∃ b, check a = .ok b := by
  induction as with
  | nil => simp [checkEach]
  | cons a as ih => cases h : check a <;> simp [checkEach, h, ih]

namespace ElementSegment

def checkTable (m : Module) (s : ElementSegment) : Except Error Unit :=
  match s.mode with
  | .active i => do
    let t ← m.table i
    if t.element = s.type then .ok ()
    else .error (.typeMismatch "elem segment" [t.element.name] [s.type.name])
  | .passive | .declarative => .ok ()

def checkFunctions (m : Module) : List UInt32 → Except Error Unit
  | [] => .ok ()
  | f :: fs => do
    let _ ← m.functionType f
    checkFunctions m fs

def check (m : Module) (s : ElementSegment) : Except Error Unit := do
  s.checkTable m
  checkFunctions m s.functions

end ElementSegment

/-- Checks everything but the code: functions, tables, memories, element segments. -/
def Module.checkDeclarations (m : Module) : Except Diagnostic Unit := do
  checkEach "OnImportFunc" m.funcType m.imports
  checkEach "OnFunction" (fun b => m.funcType b.typeIndex) m.functions
  checkEach "OnTable" (·.limits.check) m.tables
  checkEach "OnMemory" (·.check) m.memories
  checkEach "BeginElemSegment" (·.check m) m.segments

end WasmCheck
