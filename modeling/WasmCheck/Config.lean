/-!
# Configuration

The limits of a check, and whether the bodies of a module may be checked at the same time.
-/

namespace WasmCheck

structure Config where
  /-- The greatest number of operands a body may have on the stack. -/
  maxOperands : Nat := 65536
  /-- The greatest number of open frames, that of the function included. -/
  maxFrames : Nat := 1024
  /-- The greatest number of local variables of a body, parameters included. -/
  maxLocals : UInt32 := 50000
  /-- Check the bodies independently of each other. The report is the same either way. -/
  parallel : Bool := false
deriving DecidableEq, Repr

end WasmCheck
