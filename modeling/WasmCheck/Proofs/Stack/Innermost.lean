import WasmCheck.Stack.Ops
import WasmCheck.Proofs.Outcome

/-!
# The innermost frame

Every operation works on the operands of the innermost frame alone. Where the frame `f` holds the
operands `xs` above those of the enclosing frames, the stack is `⟨xs ++ below, f :: fs, mo, mf⟩`
with `f.height = below.length`; the lemmas here give each operation as an equivalence in these
terms, and neither `below` nor `fs` plays a part in them.
-/

namespace WasmCheck.Stack

open Attempt

section General
variable {s : Stack} {α : Type} {E : Error → Stack → Prop}

theorem post_reserve {n : Nat} {Q : Unit → Stack → Prop} :
    Post (reserve n) s Q E ↔
      if s.maxOperands < s.size + n then E (.operandOverflow s.maxOperands) s else Q () s := by
  by_cases hn : s.maxOperands < s.size + n <;> simp [Post, Attempt.run, reserve, hn]

theorem post_pushOperand {o : Operand} {Q : Unit → Stack → Prop} :
    Post (pushOperand o) s Q E ↔
      if s.maxOperands < s.size + 1 then E (.operandOverflow s.maxOperands) s
      else Q () { s with operands := o :: s.operands } := by
  simp [pushOperand, post_reserve]

theorem post_pushAll {ts : List ValueType} {Q : Unit → Stack → Prop} :
    Post (pushAll ts) s Q E ↔
      if s.maxOperands < s.size + ts.length then E (.operandOverflow s.maxOperands) s
      else Q () { s with operands := ts.reverse.map .known ++ s.operands } := by
  simp [pushAll, post_reserve]

theorem post_openFrame {kind : FrameKind} {ps rs : List ValueType} {Q : Unit → Stack → Prop} :
    Post (openFrame kind ps rs) s Q E ↔
      if s.maxFrames ≤ s.depth then E (.controlOverflow s.maxFrames) s
      else if s.maxOperands < s.size + ps.length then E (.operandOverflow s.maxOperands) s
      else Q () { s with
        operands := ps.reverse.map .known ++ s.operands
        frames := ⟨kind, ps, rs, s.size, false⟩ :: s.frames } := by
  simp [openFrame, post_pushAll]

theorem post_peekAll_window {ts : List ValueType} {d : String} {Q : Unit → Stack → Prop} :
    Post (peekAll ts d) s Q E ↔
      if fits s.unreachable (s.window ts.length) ts.reverse then Q () s
      else E (s.mismatch ts d) s := by
  by_cases hf : fits s.unreachable (s.window ts.length) ts.reverse <;>
    simp [Post, Attempt.run, peekAll, hf]

theorem post_labelTypes {depth : UInt32} {Q : List ValueType → Stack → Prop} :
    Post (labelTypes depth) s Q E ↔
      match s.frames[depth.toNat]? with
      | some f => Q f.labelTypes s
      | none => E (.invalidDepth depth (s.depth - 1)) s := by
  cases hf : s.frames[depth.toNat]? <;> simp [Post, Attempt.run, labelTypes, hf]

theorem post_currentFrame {Q : Frame → Stack → Prop} :
    Post currentFrame s Q E ↔
      match s.frames with
      | f :: _ => Q f s
      | [] => E .afterEnd s := by
  cases hf : s.frames <;> simp [Post, Attempt.run, currentFrame, hf]

end General

section Framed
variable {f : Frame} {fs : List Frame} {xs below : List Operand} {mo mf : Nat}
  {E : Error → Stack → Prop}

theorem available_framed (h : f.height = below.length) :
    (⟨xs ++ below, f :: fs, mo, mf⟩ : Stack).available = xs.length := by
  simp [available, size, floor, h]

theorem window_framed (h : f.height = below.length) (n : Nat) :
    (⟨xs ++ below, f :: fs, mo, mf⟩ : Stack).window n = xs.take n := by
  rw [window, available_framed h, List.take_append_of_le_length (Nat.min_le_right ..),
    ← List.take_take, List.take_length]

theorem mismatch_framed (h : f.height = below.length) (ts : List ValueType) (d : String) :
    mismatch ⟨xs ++ below, f :: fs, mo, mf⟩ ts d =
      .typeMismatch d (ts.map (·.name)) ((xs.take (max 1 ts.length)).reverse.map (·.name)) := by
  rw [mismatch, window_framed h]

theorem operand?_framed (h : f.height = below.length) (n : Nat) :
    (⟨xs ++ below, f :: fs, mo, mf⟩ : Stack).operand? n = xs[n]? := by
  rw [operand?, available_framed h]
  split
  · next hn => exact List.getElem?_append_left hn
  · next hn => exact (List.getElem?_eq_none (by omega)).symm

theorem post_peekAll (h : f.height = below.length) {ts : List ValueType} {d : String}
    {Q : Unit → Stack → Prop} :
    Post (peekAll ts d) ⟨xs ++ below, f :: fs, mo, mf⟩ Q E ↔
      if fits f.unreachable xs ts.reverse then Q () ⟨xs ++ below, f :: fs, mo, mf⟩
      else E (mismatch ⟨xs ++ below, f :: fs, mo, mf⟩ ts d) ⟨xs ++ below, f :: fs, mo, mf⟩ := by
  have hw : fits f.unreachable (xs.take ts.length) ts.reverse = fits f.unreachable xs ts.reverse :=
    fits_take _ _ _ (by simp)
  rw [post_peekAll_window, window_framed h, unreachable, hw]

theorem post_discard (h : f.height = below.length) {n : Nat} {Q : Unit → Stack → Prop} :
    Post (discard n) ⟨xs ++ below, f :: fs, mo, mf⟩ Q E ↔
      Q () ⟨xs.drop n ++ below, f :: fs, mo, mf⟩ := by
  have hd : (xs ++ below).drop (min n xs.length) = xs.drop n ++ below := by
    rw [List.drop_append_of_le_length (Nat.min_le_right ..)]
    rcases Nat.le_total n xs.length with hn | hn
    · rw [Nat.min_eq_left hn]
    · rw [Nat.min_eq_right hn, List.drop_length, List.drop_eq_nil_of_le hn]
  simp only [discard, post_modify, available_framed h, hd]

theorem post_popAll (h : f.height = below.length) {ts : List ValueType} {d : String}
    {Q : Unit → Stack → Prop} :
    Post (popAll ts d) ⟨xs ++ below, f :: fs, mo, mf⟩ Q E ↔
      if fits f.unreachable xs ts.reverse then Q () ⟨xs.drop ts.length ++ below, f :: fs, mo, mf⟩
      else E (mismatch ⟨xs ++ below, f :: fs, mo, mf⟩ ts d) ⟨xs ++ below, f :: fs, mo, mf⟩ := by
  simp only [popAll, post_bind, post_peekAll h, post_discard h]

theorem post_takeTop (h : f.height = below.length) {Q : Operand → Stack → Prop} :
    Post takeTop ⟨xs ++ below, f :: fs, mo, mf⟩ Q E ↔
      Q (xs.headD .unknown) ⟨xs.drop 1 ++ below, f :: fs, mo, mf⟩ := by
  unfold Post Attempt.run takeTop
  rw [operand?_framed h]
  cases xs <;> simp

theorem post_pop (h : f.height = below.length) {t : ValueType} {d : String}
    {Q : Operand → Stack → Prop} :
    Post (pop t d) ⟨xs ++ below, f :: fs, mo, mf⟩ Q E ↔
      if fits f.unreachable xs [t] then
        Q (xs.headD .unknown) ⟨xs.drop 1 ++ below, f :: fs, mo, mf⟩
      else E (mismatch ⟨xs ++ below, f :: fs, mo, mf⟩ [t] d) ⟨xs ++ below, f :: fs, mo, mf⟩ := by
  simp only [pop, post_bind, post_peekAll h, post_takeTop h, List.reverse_singleton]

theorem post_popAny (h : f.height = below.length) {d : String} {Q : Operand → Stack → Prop} :
    Post (popAny d) ⟨xs ++ below, f :: fs, mo, mf⟩ Q E ↔
      if xs = [] ∧ f.unreachable = false then
        E (.typeMismatch d ["any"] []) ⟨xs ++ below, f :: fs, mo, mf⟩
      else Q (xs.headD .unknown) ⟨xs.drop 1 ++ below, f :: fs, mo, mf⟩ := by
  simp only [popAny, post_bind, post_get, available_framed h]
  by_cases hc : xs = [] ∧ f.unreachable = false
  · simp [hc, unreachable]
  · rw [if_neg hc, if_neg (by simpa [unreachable] using hc), post_takeTop h]

/-- The top operand is a reference, or may be one. -/
def supplyReference (open_ : Bool) : List Operand → Bool
  | .known t :: _ => t.isRef
  | .unknown :: _ => true
  | [] => open_

theorem post_popReference (h : f.height = below.length) {d : String}
    {Q : Operand → Stack → Prop} :
    Post (popReference d) ⟨xs ++ below, f :: fs, mo, mf⟩ Q E ↔
      if supplyReference f.unreachable xs then
        Q (xs.headD .unknown) ⟨xs.drop 1 ++ below, f :: fs, mo, mf⟩
      else E (.typeMismatch d ["reference"] ((xs.take 1).map (·.name)))
        ⟨xs ++ below, f :: fs, mo, mf⟩ := by
  simp only [popReference, post_bind, post_get, window_framed h, operand?_framed h]
  rcases xs with _ | ⟨t | _, os⟩
  · cases hu : f.unreachable <;> simp [unreachable, hu, supplyReference]
  · cases ht : t.isRef <;>
      simp only [List.getElem?_cons_zero, supplyReference, ht, Bool.false_eq_true, if_true,
        if_false, post_takeTop h, post_fail, List.take_succ_cons, List.take_zero]
  · simp only [List.getElem?_cons_zero, post_takeTop h, supplyReference, if_true]

theorem post_markUnreachable (h : f.height = below.length) {Q : Unit → Stack → Prop} :
    Post markUnreachable ⟨xs ++ below, f :: fs, mo, mf⟩ Q E ↔
      Q () ⟨below, { f with unreachable := true } :: fs, mo, mf⟩ := by
  simp [markUnreachable, size, h]

theorem post_closeFrame (h : f.height = below.length) {d : String} {Q : Frame → Stack → Prop} :
    Post (closeFrame d) ⟨xs ++ below, f :: fs, mo, mf⟩ Q E ↔
      if closes f xs then Q f ⟨below, fs, mo, mf⟩
      else E (.typeMismatch d (f.results.map (·.name)) (xs.reverse.map (·.name)))
        ⟨xs ++ below, f :: fs, mo, mf⟩ := by
  simp only [closeFrame, post_bind, post_currentFrame, post_get, size, List.length_append, h,
    Nat.add_sub_cancel, List.take_left, List.drop_left]
  split <;> simp

end Framed

end WasmCheck.Stack
