import WasmCheck.Error

/-!
# Diagnostics

An error as it is reported: where it was found and through which callbacks it was passed on. It
renders as one line for the failed check and one for each callback, innermost first.
-/

namespace WasmCheck

/-- A reported error. A failure of a declaration or a trap has no offset. -/
structure Diagnostic where
  offset : Option Nat
  error : Error
  callbacks : List String
deriving DecidableEq, Repr

namespace Diagnostic

def located (offset : Nat) (e : Error) : Diagnostic := ⟨some offset, e, []⟩

def unlocated (e : Error) : Diagnostic := ⟨none, e, []⟩

/-- The same failure, passed on by one more callback. -/
def through (d : Diagnostic) (callback : String) : Diagnostic :=
  { d with callbacks := d.callbacks ++ [callback] }

def message (d : Diagnostic) : String := d.error.message

/-- The stages of the report with their messages, the failed check first. -/
def entries (d : Diagnostic) : List (String × String) :=
  ("check", d.message) :: d.callbacks.map fun c => (c, c ++ " callback failed")

def lead (d : Diagnostic) : String :=
  match d.offset with
  | some offset => Text.hex 7 offset ++ ": error: "
  | none => if d.error.isTrap then "" else "error: "

def lines (d : Diagnostic) : List String := d.entries.map fun entry => d.lead ++ entry.2

theorem length_lines (d : Diagnostic) : d.lines.length = d.callbacks.length + 1 := by
  simp [lines, entries]

def text (d : Diagnostic) : String := "\n".intercalate d.lines

end Diagnostic

end WasmCheck
