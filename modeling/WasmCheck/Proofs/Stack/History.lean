import WasmCheck.Proofs.Stack.Innermost

/-!
# The history of an operand stack

An operand stack starts empty and is worked on by its operations in any order, some of which fail;
operands may be pushed before a frame is open. An operation first makes its checks, and then it does
one thing: it drops operands of the innermost frame, puts operands on top, gives up a frame, opens
one or closes one. `Action.Change` lists these cases. So an operation that fails has done nothing,
and one that succeeds stays inside the innermost frame.
-/

namespace WasmCheck.Stack

open Operand (known)
open Attempt

inductive Action where
  | push (t : ValueType)
  | pushOperand (o : Operand)
  | pushAll (ts : List ValueType)
  | peek (n : Nat)
  | peekAll (ts : List ValueType) (desc : String)
  | pop (t : ValueType) (desc : String)
  | popAny (desc : String)
  | popReference (desc : String)
  | popAll (ts : List ValueType) (desc : String)
  | markUnreachable
  | openFrame (kind : FrameKind) (params results : List ValueType)
  | closeFrame (desc : String)
  | currentFrame
  | labelTypes (depth : UInt32)

namespace Action

/-- What the operation does; its answer is not looked at. -/
def attempt : Action → Check Unit
  | push t => Stack.push t
  | pushOperand o => Stack.pushOperand o
  | pushAll ts => Stack.pushAll ts
  | peek n => do
    let s ← get
    let _ := s.operand? n
  | peekAll ts desc => Stack.peekAll ts desc
  | pop t desc => do
    let _ ← Stack.pop t desc
  | popAny desc => do
    let _ ← Stack.popAny desc
  | popReference desc => do
    let _ ← Stack.popReference desc
  | popAll ts desc => Stack.popAll ts desc
  | markUnreachable => Stack.markUnreachable
  | openFrame kind params results => Stack.openFrame kind params results
  | closeFrame desc => do
    let _ ← Stack.closeFrame desc
  | currentFrame => do
    let _ ← Stack.currentFrame
  | labelTypes depth => do
    let _ ← Stack.labelTypes depth

def apply (a : Action) (s : Stack) : Stack := (run a.attempt s).2

end Action

def after (s : Stack) (as : List Action) : Stack := as.foldl (fun s a => a.apply s) s

/-- The limits are kept. Heights do not decrease towards the innermost frame, and none of them is
greater than the number of operands. -/
structure InOrder (s : Stack) : Prop where
  size_le : s.size ≤ s.maxOperands
  depth_le : s.depth ≤ s.maxFrames
  heights : s.frames.Pairwise fun inner outer => outer.height ≤ inner.height
  height_le : ∀ f ∈ s.frames, f.height ≤ s.size

/-- What an operation may lead to: operands of the innermost frame are dropped, others are pushed,
or the frames change. -/
inductive Action.Change (s : Stack) : Action → Stack → Prop where
  | drop {a : Action} {n : Nat} : n ≤ s.available →
      Change s a { s with operands := s.operands.drop n }
  | push {a : Action} {os : List Operand} : s.size + os.length ≤ s.maxOperands →
      Change s a { s with operands := os ++ s.operands }
  | mark {f : Frame} {fs : List Frame} : s.frames = f :: fs →
      Change s .markUnreachable { s with
        operands := s.operands.drop (s.size - f.height)
        frames := { f with unreachable := true } :: fs }
  | enter {kind : FrameKind} {ps rs : List ValueType} : s.depth < s.maxFrames →
      s.size + ps.length ≤ s.maxOperands →
      Change s (.openFrame kind ps rs) { s with
        operands := ps.reverse.map known ++ s.operands
        frames := ⟨kind, ps, rs, s.size, false⟩ :: s.frames }
  | leave {f : Frame} {fs : List Frame} {desc : String} : s.frames = f :: fs →
      Change s (.closeFrame desc) { s with
        operands := s.operands.drop (s.size - f.height)
        frames := fs }

/-! ## Operations -/

section Operations
variable {s : Stack} {a : Action} {E : Error → Stack → Prop}

theorem Action.Change.same : a.Change s s := .drop (n := 0) (Nat.zero_le _)

theorem change_takeTop : Post takeTop s (fun _ => a.Change s) E := by
  unfold Post Attempt.run takeTop operand?
  by_cases h : 0 < s.available
  · have hlen : 0 < s.operands.length := Nat.lt_of_lt_of_le h s.available_le_size
    rw [if_pos h, List.getElem?_eq_getElem hlen]
    exact .drop h
  · rw [if_neg h]
    exact .same

theorem change_peekAll {ts : List ValueType} {desc : String} :
    Post (peekAll ts desc) s (fun _ s' => s' = s) fun _ s' => s' = s := by
  rw [post_peekAll_window]
  split <;> rfl

/-- An operation makes its change, or it fails and leaves the stack as it is. -/
theorem Action.post_attempt (a : Action) (s : Stack) :
    Post a.attempt s (fun _ => a.Change s) fun _ s' => s' = s := by
  cases a with
  | push t | pushOperand o =>
    refine post_pushOperand.2 ?_
    split
    · rfl
    · next h => exact @Change.push s _ [_] (Nat.le_of_not_lt h)
  | pushAll ts =>
    refine post_pushAll.2 ?_
    split
    · rfl
    · next h => exact .push (by simpa using h)
  | peek n => exact .same
  | peekAll ts desc => exact change_peekAll.mono (fun _ _ h => h ▸ .same) fun _ _ h => h
  | pop t desc =>
    refine post_bind.2 (post_bind.2 (change_peekAll.mono ?_ fun _ _ h => h))
    rintro - s' rfl
    exact change_takeTop
  | popAny desc =>
    refine post_bind.2 ?_
    simp only [Stack.popAny, post_bind, post_get]
    split
    · rfl
    · exact change_takeTop
  | popReference desc =>
    refine post_bind.2 ?_
    simp only [Stack.popReference, post_bind, post_get]
    split
    · split
      · exact change_takeTop
      · rfl
    · exact change_takeTop
    · split
      · exact .same
      · rfl
  | popAll ts desc =>
    refine post_bind.2 (change_peekAll.mono ?_ fun _ _ h => h)
    rintro - s' rfl
    exact post_modify.2 (.drop (Nat.min_le_right ..))
  | markUnreachable =>
    refine post_modify.2 ?_
    split
    · next f fs h => exact .mark h
    · exact .same
  | openFrame kind ps rs =>
    refine post_openFrame.2 ?_
    split
    · rfl
    · next hd =>
      split
      · rfl
      · next hn => exact .enter (Nat.lt_of_not_le hd) (Nat.le_of_not_lt hn)
  | closeFrame desc =>
    refine post_bind.2 ?_
    simp only [Stack.closeFrame, post_bind, post_currentFrame, post_get]
    split
    · next f fs h =>
      split
      · rw [h]
        exact .leave h
      · rfl
    · trivial
  | currentFrame =>
    refine post_bind.2 (post_currentFrame.2 ?_)
    split
    · exact .same
    · rfl
  | labelTypes depth =>
    refine post_bind.2 (post_labelTypes.2 ?_)
    split
    · exact .same
    · rfl

end Operations

/-! ## Changes -/

theorem inOrder_empty (mo mf : Nat) : InOrder (empty mo mf) :=
  ⟨Nat.zero_le _, Nat.zero_le _, .nil, fun _ h => nomatch h⟩

section Changes
variable {s s' : Stack} {a : Action}

theorem InOrder.floor_le (h : s.InOrder) : s.floor ≤ s.size := by
  unfold floor
  split
  · next f fs hf => exact h.height_le f (hf ▸ List.mem_cons_self)
  · exact Nat.zero_le _

theorem length_drop_to {os : List Operand} {n : Nat} (h : n ≤ os.length) :
    (os.drop (os.length - n)).length = n := by
  rw [List.length_drop]
  omega

theorem Action.Change.inOrder (h : a.Change s s') (hs : s.InOrder) : s'.InOrder := by
  have hfloor := hs.floor_le
  have hle := @height_le_floor s hs.heights
  obtain ⟨operands, frames, mo, mf⟩ := s
  obtain ⟨hn, hd, hh, hlen⟩ := hs
  simp only [size, depth] at hn hd hlen hfloor
  cases h with
  | drop hk =>
    simp only [available, size] at hk
    refine ⟨?_, hd, hh, fun f hf => ?_⟩
    · simp only [size, List.length_drop]
      omega
    · have := hle hf
      simp only [size, List.length_drop]
      omega
  | push hk =>
    refine ⟨?_, hd, hh, fun f hf => ?_⟩
    · simp only [size, List.length_append] at *
      omega
    · have := hlen f hf
      simp only [size, List.length_append]
      omega
  | @mark f fs hf =>
    cases hf
    have hf := hlen f List.mem_cons_self
    obtain ⟨hin, hout⟩ := List.pairwise_cons.1 hh
    refine ⟨?_, hd, .cons hin hout, ?_⟩
    · simp only [size, length_drop_to hf]
      omega
    · simp only [size, length_drop_to hf]
      exact List.forall_mem_cons.2 ⟨Nat.le_refl _, hin⟩
  | enter hk hm =>
    refine ⟨?_, hk, .cons (fun f hf => hlen f hf) hh, ?_⟩
    · simp only [size, List.length_append, List.length_map, List.length_reverse] at *
      omega
    · simp only [size, List.length_append, List.length_map, List.length_reverse]
      refine List.forall_mem_cons.2 ⟨Nat.le_add_left .., fun f hf => ?_⟩
      exact Nat.le_trans (hlen f hf) (Nat.le_add_left ..)
  | @leave f fs _ hf =>
    cases hf
    have hf := hlen f List.mem_cons_self
    obtain ⟨hin, hout⟩ := List.pairwise_cons.1 hh
    refine ⟨?_, Nat.le_of_succ_le hd, hout, ?_⟩
    · simp only [size, length_drop_to hf]
      omega
    · simp only [size, length_drop_to hf]
      exact hin

end Changes

/-! ## Confinement -/

/-- How an operation may change the open frames: one becomes unreachable, is added or is removed. -/
inductive Action.Reframes (s : Stack) : Action → List Frame → Prop where
  | same {a : Action} : Reframes s a s.frames
  | mark {f : Frame} {fs : List Frame} : s.frames = f :: fs →
      Reframes s .markUnreachable ({ f with unreachable := true } :: fs)
  | add {kind : FrameKind} {ps rs : List ValueType} :
      Reframes s (.openFrame kind ps rs) (⟨kind, ps, rs, s.size, false⟩ :: s.frames)
  | remove {f : Frame} {fs : List Frame} {desc : String} : s.frames = f :: fs →
      Reframes s (.closeFrame desc) fs

/-- The operation stays inside the innermost frame. Positions are counted from the bottom, and what
lies below the height of the innermost frame, before or after, is as it was. -/
structure Action.Confined (a : Action) (s s' : Stack) : Prop where
  operands : ∀ p < max s.floor s'.floor, s'.operands.reverse[p]? = s.operands.reverse[p]?
  frames : a.Reframes s s'.frames
  maxOperands : s'.maxOperands = s.maxOperands
  maxFrames : s'.maxFrames = s.maxFrames

theorem getElem?_reverse_drop {os : List Operand} {n p : Nat} (h : p < os.length - n) :
    (os.drop n).reverse[p]? = os.reverse[p]? := by
  rw [List.reverse_drop, List.getElem?_take_of_lt h]

theorem getElem?_reverse_append {os xs : List Operand} {p : Nat} (h : p < os.length) :
    (xs ++ os).reverse[p]? = os.reverse[p]? := by
  rw [List.reverse_append, List.getElem?_append_left (by rwa [List.length_reverse])]

theorem Action.Change.confined {s s' : Stack} {a : Action} (h : a.Change s s') (hs : s.InOrder) :
    a.Confined s s' := by
  have hfloor := hs.floor_le
  have hhs := hs.heights
  have hlen := hs.height_le
  obtain ⟨operands, frames, mo, mf⟩ := s
  simp only [size] at hfloor hlen
  cases h with
  | drop hk =>
    refine ⟨fun p hp => getElem?_reverse_drop ?_, .same, rfl, rfl⟩
    simp only [available, size, floor] at *
    omega
  | push hk =>
    refine ⟨fun p hp => getElem?_reverse_append ?_, .same, rfl, rfl⟩
    simp only [floor] at *
    omega
  | mark hf =>
    cases hf
    refine ⟨fun p hp => getElem?_reverse_drop ?_, .mark rfl, rfl, rfl⟩
    simp only [size, floor] at *
    omega
  | enter hk hm =>
    refine ⟨fun p hp => getElem?_reverse_append ?_, .add, rfl, rfl⟩
    simp only [floor, size] at *
    omega
  | @leave f fs _ hf =>
    cases hf
    have hin : floor ⟨operands, fs, mo, mf⟩ ≤ f.height := by
      cases fs with
      | nil => exact Nat.zero_le _
      | cons g fs => exact (List.pairwise_cons.1 hhs).1 g List.mem_cons_self
    refine ⟨fun p hp => getElem?_reverse_drop ?_, .remove rfl, rfl, rfl⟩
    simp only [size, floor] at *
    omega

/-! ## Histories -/

theorem run_error {a : Action} {s s' : Stack} {e : Error} (h : run a.attempt s = (.error e, s')) :
    s' = s :=
  (a.post_attempt s).of_error h

theorem Action.change_or_same (a : Action) (s : Stack) : a.Change s (a.apply s) := by
  have h := a.post_attempt s
  unfold apply
  rcases hr : run a.attempt s with ⟨e | _, s'⟩
  · rw [h.of_error hr]
    exact .same
  · exact h.of_ok hr

theorem inOrder_after {s : Stack} (hs : s.InOrder) (as : List Action) :
    (s.after as).InOrder ∧ (s.after as).maxOperands = s.maxOperands ∧
      (s.after as).maxFrames = s.maxFrames := by
  induction as generalizing s with
  | nil => exact ⟨hs, rfl, rfl⟩
  | cons a as ih =>
    have hc := a.change_or_same s
    obtain ⟨ho, hmo, hmf⟩ := ih (hc.inOrder hs)
    exact ⟨ho, hmo.trans (hc.confined hs).maxOperands, hmf.trans (hc.confined hs).maxFrames⟩

/-- Whatever operations have led from the empty stack to a stack, its limits are kept and its
heights are in order. The next operation leaves it as it is if it fails, and in any case stays
inside the innermost frame. -/
theorem confined_after (mo mf : Nat) (as : List Action) (s : Stack)
    (h : (empty mo mf).after as = s) :
    s.size ≤ mo ∧ s.depth ≤ mf ∧
      s.frames.Pairwise (fun inner outer => outer.height ≤ inner.height) ∧
      (∀ f ∈ s.frames, f.height ≤ s.size) ∧
      ∀ a : Action, (∀ e s', run a.attempt s = (.error e, s') → s' = s) ∧
        a.Confined s (a.apply s) := by
  subst h
  obtain ⟨ho, hmo, hmf⟩ := inOrder_after (inOrder_empty mo mf) as
  refine ⟨?_, ?_, ho.heights, ho.height_le, fun a => ⟨fun e s' hr => run_error hr, ?_⟩⟩
  · exact Nat.le_trans ho.size_le (Nat.le_of_eq hmo)
  · exact Nat.le_trans ho.depth_le (Nat.le_of_eq hmf)
  · exact (a.change_or_same _).confined ho

/-- There is room for one more frame, but not for its parameter. -/
theorem confined_after_full :
    ∃ e, run (Action.openFrame .loop [.i32] []).attempt
        ⟨[known .i64, .unknown], [⟨.block, [], [.i64], 1, false⟩], 2, 2⟩ =
      (.error e, ⟨[known .i64, .unknown], [⟨.block, [], [.i64], 1, false⟩], 2, 2⟩) := by
  obtain ⟨-, -, -, -, h⟩ := confined_after 2 2
    [.pushOperand .unknown, .openFrame .block [] [.i64], .push .i64] _ rfl
  have hr : run (Action.openFrame .loop [.i32] []).attempt
      ⟨[known .i64, .unknown], [⟨.block, [], [.i64], 1, false⟩], 2, 2⟩ =
      (.error (.operandOverflow 2), _) := rfl
  exact ⟨_, hr.trans (congrArg _ ((h _).1 _ _ hr))⟩

end WasmCheck.Stack
