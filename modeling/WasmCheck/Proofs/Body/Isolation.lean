import WasmCheck.Proofs.Stack.Alike
import WasmCheck.Proofs.Body.Invariant
import Mathlib.Data.List.Infix

/-!
# A frame is isolated from those around it

The code inside a frame neither sees nor touches the operands of the enclosing frames. Two checkers
that differ in such operands alone give the same answers as long as the frame stays open, and keep
differing in nothing else: the operations respect such a difference, so the rules do.
-/

namespace WasmCheck

open Stack Attempt

namespace BodyChecker

variable {below below' : List Operand} {k k' : BodyChecker}

/-- The checkers agree on everything but the operands at the bottom, which are `below` in one and
`below'` in the other. -/
structure SameAbove (below below' : List Operand) (k k' : BodyChecker) : Prop where
  context : k.context = k'.context
  frames : k.stack.frames = k'.stack.frames
  maxOperands : k.stack.maxOperands = k'.stack.maxOperands
  maxFrames : k.stack.maxFrames = k'.stack.maxFrames
  operands : ∃ xs, k.stack.operands = xs ++ below ∧ k'.stack.operands = xs ++ below'

theorem check_inside {D : Difference} (hD : ∀ e, ¬D.Excuses e) (hc : k.context = k'.context)
    (h : D.Inside k.stack k'.stack) (i : Instr) :
    (k.check i).1 = (k'.check i).1 ∧ (k.check i).2.context = (k'.check i).2.context ∧
      D.Alike (k.check i).2.stack (k'.check i).2.stack := by
  have hi := (D.respected.check (c := k.context) i h).eq hD
  refine ⟨?_, hc, ?_⟩
  · simpa only [check, ← hc] using hi.1
  · simpa only [check, ← hc] using hi.2

theorem feed_append_singleton (k : BodyChecker) (is : List Instr) (i : Instr) :
    k.feed (is ++ [i]) = ((k.feed is).check i).2 := by
  simp [feed]

/-- As long as the frame is open, the stacks differ under it alone. -/
theorem inside_feed {D : Difference} (hD : ∀ e, ¬D.Excuses e) (hc : k.context = k'.context)
    (h : D.Inside k.stack k'.stack) (is : List Instr)
    (hd : ∀ js, js <+: is → D.outer.length < (k.feed js).stack.depth) :
    (k.feed is).context = (k'.feed is).context ∧
      D.Inside (k.feed is).stack (k'.feed is).stack := by
  induction is using List.reverseRecOn with
  | nil => exact ⟨hc, h⟩
  | append_singleton is i ih =>
    obtain ⟨hc, h⟩ := ih fun js hjs => hd js (hjs.trans (List.prefix_append _ _))
    rw [feed_append_singleton, feed_append_singleton]
    obtain ⟨-, hc, h⟩ := check_inside hD hc h i
    refine ⟨hc, h.inside ?_⟩
    rw [← feed_append_singleton]
    exact hd _ List.prefix_rfl

theorem SameAbove.of_inside {outer : List Frame} {mo mf : Nat}
    {hl : below.length = below'.length} (hc : k.context = k'.context)
    (h : (Difference.under outer hl mo mf).Inside k.stack k'.stack) :
    SameAbove below below' k k' := by
  obtain ⟨c, s⟩ := k
  obtain ⟨c', s'⟩ := k'
  cases h with
  | mk xs h hf =>
    obtain ⟨zs, rfl, rfl⟩ := h.split
    exact ⟨hc, rfl, rfl, rfl, xs ++ zs, by rw [List.append_assoc]; rfl,
      by rw [List.append_assoc]; rfl⟩

theorem SameAbove.inside {f : Frame} {fs : List Frame} (h : SameAbove below below' k k')
    (hl : below.length = below'.length) (hk : k.stack.frames = f :: fs)
    (hf : f.height = below.length) :
    (Difference.under fs hl k.stack.maxOperands k.stack.maxFrames).Inside k.stack k'.stack := by
  obtain ⟨c, xs, fs, mo, mf⟩ := k
  obtain ⟨c', xs', fs', mo', mf'⟩ := k'
  obtain ⟨rfl, rfl, rfl, rfl, xs, rfl, rfl⟩ := h
  cases hk
  exact .mk xs (.base []) hf

theorem SameAbove.eq_of_frames_nil (h : SameAbove below below' k k')
    (hl : below.length = below'.length) (hk : k.stack.frames = [])
    (hf : k.stack.floor = below.length) : below = [] ∧ k = k' := by
  obtain ⟨c, xs, fs, mo, mf⟩ := k
  obtain ⟨c', xs', fs', mo', mf'⟩ := k'
  obtain ⟨rfl, rfl, rfl, rfl, xs, rfl, rfl⟩ := h
  cases hk
  obtain rfl := List.eq_nil_of_length_eq_zero hf.symm
  obtain rfl := List.eq_nil_of_length_eq_zero hl.symm
  exact ⟨rfl, rfl⟩

/-- Two checkers that differ only in as many operands under the innermost frame are fed the same
instructions, and the frame stays open. Then they go on to differ in these operands only, and any
instruction has one answer on both. -/
theorem sameAbove_feed (k k' : BodyChecker) (below below' : List Operand)
    (h : SameAbove below below' k k') (hl : below.length = below'.length)
    (hf : k.stack.floor = below.length) (is : List Instr)
    (hd : ∀ js, js <+: is → k.stack.depth ≤ (k.feed js).stack.depth) :
    ∀ js, js <+: is → SameAbove below below' (k.feed js) (k'.feed js) ∧
      ∀ i, ((k.feed js).check i).1 = ((k'.feed js).check i).1 := by
  intro js hj
  cases hk : k.stack.frames with
  | nil =>
    obtain ⟨rfl, rfl⟩ := h.eq_of_frames_nil hl hk hf
    obtain rfl := List.eq_nil_of_length_eq_zero hl.symm
    exact ⟨⟨rfl, rfl, rfl, rfl, _, (List.append_nil _).symm, (List.append_nil _).symm⟩,
      fun _ => rfl⟩
  | cons f fs =>
    have hin := h.inside hl hk (by rw [← hf, floor, hk])
    have hX := Difference.not_excuses_under fs hl k.stack.maxOperands k.stack.maxFrames
    obtain ⟨hc, hjs⟩ := inside_feed hX h.context hin js fun is' hi => by
      have := hd is' (hi.trans hj)
      rw [depth, hk] at this
      exact this
    exact ⟨.of_inside hc hjs, fun i => (check_inside hX hc hjs i).1⟩

def blockOver (o : Operand) : BodyChecker where
  context := ⟨.empty, ⟨[], []⟩, [.i32]⟩
  stack := ⟨[o], [⟨.block, [], [.i32], 1, false⟩, ⟨.function, [], [.i32], 0, false⟩], 4, 3⟩

/-- The second `drop` finds nothing in the block. An `if` is opened after it and closed again, the
rest of its first branch being unreachable. -/
def blockCode : List Instr :=
  [.op (.fixed (.i32Const 0)), .op .drop, .op .drop, .op (.fixed (.i32Const 1)), .if_ .empty,
    .op (.br 0), .op .select, .op .drop, .else_, .end_]

theorem sameAbove_feed_block :
    SameAbove [.known .i32] [.known .i64] ((blockOver (.known .i32)).feed blockCode)
        ((blockOver (.known .i64)).feed blockCode) ∧
      ∀ i, (((blockOver (.known .i32)).feed blockCode).check i).1 =
        (((blockOver (.known .i64)).feed blockCode).check i).1 := by
  have hopen : ∀ js ∈ blockCode.inits, 2 ≤ ((blockOver (.known .i32)).feed js).stack.depth := by
    decide
  exact sameAbove_feed (blockOver (.known .i32)) (blockOver (.known .i64)) [.known .i32]
    [.known .i64] ⟨rfl, rfl, rfl, rfl, [], rfl, rfl⟩ rfl rfl blockCode
    (fun js hj => hopen js ((List.mem_inits _ _).2 hj)) blockCode List.prefix_rfl

end BodyChecker

end WasmCheck
