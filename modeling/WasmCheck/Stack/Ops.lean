import WasmCheck.Stack.Basic
import WasmCheck.Attempt

/-!
# Operations on the operand stack

Pushing, popping and peeking inside the innermost frame, opening and closing frames, and branching
to them. An operation that fails leaves the stack alone; none of them touches what lies below the
height of the innermost frame.
-/

namespace WasmCheck

abbrev Check := Attempt Stack

namespace Stack

/-- A mismatch that shows the wanted types, and as many operands as could have been meant. -/
def mismatch (s : Stack) (wanted : List ValueType) (desc : String) : Error :=
  .typeMismatch desc (wanted.map (·.name))
    ((s.window (max 1 wanted.length)).reverse.map (·.name))

/-! ## Pushing -/

def reserve (n : Nat) : Check Unit := fun s =>
  if s.maxOperands < s.size + n then (.error (.operandOverflow s.maxOperands), s) else (.ok (), s)

def pushOperand (o : Operand) : Check Unit := do
  reserve 1
  modify fun s => { s with operands := o :: s.operands }

def push (t : ValueType) : Check Unit := pushOperand (.known t)

def pushAll (ts : List ValueType) : Check Unit := do
  reserve ts.length
  modify fun s => { s with operands := ts.reverse.map .known ++ s.operands }

/-! ## Peeking and popping -/

/-- The innermost frame can supply operands of the given types, the last one from the top. -/
def peekAll (ts : List ValueType) (desc : String) : Check Unit := fun s =>
  if fits s.unreachable (s.window ts.length) ts.reverse then (.ok (), s)
  else (.error (s.mismatch ts desc), s)

/-- Drops the top `n` operands of the innermost frame, or all of them if there are fewer. -/
def discard (n : Nat) : Check Unit :=
  modify fun s => { s with operands := s.operands.drop (min n s.available) }

def popAll (ts : List ValueType) (desc : String) : Check Unit := do
  peekAll ts desc
  discard ts.length

/-- Takes the top operand of the innermost frame; at the height of the frame, an unknown one. -/
def takeTop : Check Operand := fun s =>
  match s.operand? 0 with
  | some o => (.ok o, { s with operands := s.operands.drop 1 })
  | none => (.ok .unknown, s)

def pop (t : ValueType) (desc : String) : Check Operand := do
  peekAll [t] desc
  takeTop

def popAny (desc : String) : Check Operand := do
  let s ← get
  if s.available = 0 && !s.unreachable then
    Attempt.fail (.typeMismatch desc ["any"] [])
  else
    takeTop

def popReference (desc : String) : Check Operand := do
  let s ← get
  let refused := Attempt.fail (.typeMismatch desc ["reference"] ((s.window 1).map (·.name)))
  match s.operand? 0 with
  | some (.known t) => if t.isRef then takeTop else refused
  | some .unknown => takeTop
  | none => if s.unreachable then pure .unknown else refused

/-- Gives up the operands of the innermost frame: what follows in it cannot be reached. -/
def markUnreachable : Check Unit :=
  modify fun s =>
    match s.frames with
    | f :: fs =>
      { s with
        operands := s.operands.drop (s.size - f.height)
        frames := { f with unreachable := true } :: fs }
    | [] => s

/-! ## Frames -/

def currentFrame : Check Frame := fun s =>
  match s.frames with
  | f :: _ => (.ok f, s)
  | [] => (.error .afterEnd, s)

/-- Opens a frame above the present operands and pushes its parameters. -/
def openFrame (kind : FrameKind) (params results : List ValueType) : Check Unit := do
  let s ← get
  if s.maxFrames ≤ s.depth then
    Attempt.fail (.controlOverflow s.maxFrames)
  pushAll params
  modify fun t => { t with frames := ⟨kind, params, results, s.size, false⟩ :: t.frames }

/-- The operands above the height of a frame are its results: all of them, or in unreachable code
the last ones. -/
def closes (f : Frame) (above : List Operand) : Bool :=
  above.length ≤ f.results.length && fits f.unreachable above f.results.reverse

/-- Closes the innermost frame and drops its results, which the caller hands on. -/
def closeFrame (desc : String) : Check Frame := do
  let f ← currentFrame
  let s ← get
  let above := s.operands.take (s.size - f.height)
  if closes f above then
    set { s with operands := s.operands.drop (s.size - f.height), frames := s.frames.drop 1 }
    return f
  else
    Attempt.fail (.typeMismatch desc (f.results.map (·.name)) (above.reverse.map (·.name)))

def labelTypes (depth : UInt32) : Check (List ValueType) := fun s =>
  match s.frames[depth.toNat]? with
  | some f => (.ok f.labelTypes, s)
  | none => (.error (.invalidDepth depth (s.depth - 1)), s)

end Stack

end WasmCheck
