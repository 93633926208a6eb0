import WasmCheck.Types.Basic

/-!
# The operand stack

The stack of a body under check holds operand types, not values. Every open control construct has
a frame that remembers how high the stack was when it was opened; the operands below that height
belong to the enclosing constructs. After a jump the rest of a frame is unreachable: there the
missing operands may have any type.

Both stacks are lists with the top, or the innermost frame, at the head.
-/

namespace WasmCheck

/-- An operand whose type is known, or one that unreachable code left open. -/
inductive Operand where
  | known (t : ValueType)
  | unknown
deriving DecidableEq, Repr

namespace Operand

def fits : Operand → ValueType → Bool
  | known s, t => s == t
  | unknown, _ => true

def type? : Operand → Option ValueType
  | known t => some t
  | unknown => none

def name : Operand → String
  | known t => t.name
  | unknown => "any"

@[simp] theorem known_fits {s t : ValueType} : (known s).fits t = true ↔ s = t := by
  simp [fits]

end Operand

inductive FrameKind where
  | function
  | block
  | loop
  | if_
  | else_
deriving DecidableEq, Repr

def FrameKind.name : FrameKind → String
  | function => "function"
  | block => "block"
  | loop => "loop"
  | if_ => "if"
  | else_ => "else"

structure Frame where
  kind : FrameKind
  params : List ValueType
  results : List ValueType
  /-- The number of operands below the construct. -/
  height : Nat
  /-- The rest of the construct cannot be reached. -/
  unreachable : Bool
deriving DecidableEq, Repr

/-- The operands a branch to the frame carries: a loop is entered anew, all else is left. -/
def Frame.labelTypes (f : Frame) : List ValueType :=
  match f.kind with
  | .loop => f.params
  | .function | .block | .if_ | .else_ => f.results

/-- The operands and the open frames of a body, and how many of each there may be. -/
structure Stack where
  operands : List Operand
  frames : List Frame
  maxOperands : Nat
  maxFrames : Nat
deriving DecidableEq, Repr

namespace Stack

def empty (maxOperands maxFrames : Nat) : Stack := ⟨[], [], maxOperands, maxFrames⟩

/-- The number of operands on the stack, those of enclosing frames included. -/
def size (s : Stack) : Nat := s.operands.length

def depth (s : Stack) : Nat := s.frames.length

/-- The height of the innermost frame, where its own operands begin. -/
def floor (s : Stack) : Nat :=
  match s.frames with
  | f :: _ => f.height
  | [] => 0

def unreachable (s : Stack) : Bool :=
  match s.frames with
  | f :: _ => f.unreachable
  | [] => false

/-- The number of operands that belong to the innermost frame. -/
def available (s : Stack) : Nat := s.size - s.floor

/-- The top `n` operands of the innermost frame, the top first; all of them if there are fewer. -/
def window (s : Stack) (n : Nat) : List Operand := s.operands.take (min n s.available)

/-- The operand `n` places below the top, if it belongs to the innermost frame. -/
def operand? (s : Stack) (n : Nat) : Option Operand :=
  if n < s.available then s.operands[n]? else none

theorem height_le_floor {s : Stack}
    (h : s.frames.Pairwise fun inner outer => outer.height ≤ inner.height) {f : Frame}
    (hf : f ∈ s.frames) : f.height ≤ s.floor := by
  obtain ⟨operands, frames, mo, mf⟩ := s
  cases hf with
  | head => exact Nat.le_refl _
  | tail _ hf => exact List.rel_of_pairwise_cons h hf

theorem available_le_size (s : Stack) : s.available ≤ s.size := Nat.sub_le ..

theorem window_eq_take (s : Stack) (n : Nat) :
    s.window n = (s.operands.take s.available).take n := by
  rw [window, List.take_take]

/-- The types, top first, can be taken off the operands, top first. Where operands are missing
`open_` decides: unreachable code supplies any. -/
def fits (open_ : Bool) : List Operand → List ValueType → Bool
  | _, [] => true
  | [], _ :: _ => open_
  | o :: os, t :: ts => o.fits t && fits open_ os ts

theorem fits_nil_left (b : Bool) (ts : List ValueType) :
    fits b [] ts = (ts.isEmpty || b) := by
  cases ts <;> simp [fits]

theorem fits_take (b : Bool) (os : List Operand) (ts : List ValueType) {n : Nat}
    (h : ts.length ≤ n) : fits b (os.take n) ts = fits b os ts := by
  induction os generalizing ts n with
  | nil => simp
  | cons o os ih =>
    cases ts with
    | nil => simp [fits]
    | cons t ts =>
      cases n with
      | zero => simp at h
      | succ n => simp [fits, ih ts (Nat.le_of_succ_le_succ h)]

end Stack

end WasmCheck
