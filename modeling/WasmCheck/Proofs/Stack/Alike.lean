import WasmCheck.Proofs.Body.Congruence
import WasmCheck.Proofs.Stack.Innermost

/-!
# Stacks that differ below

Two stacks have the same frames and the same operands, except for as many operands that lie under
some outer frames. As long as an inner frame is open no operation can tell them apart: it takes the
same way on both and keeps them alike. The second stack may have lower limits; then it may be the
only one to run out of room.
-/

namespace WasmCheck.Stack

open Attempt

/-- What two stacks differ in: the operands under the frames `outer`, and the limits, none of which
is higher for the second one. -/
structure Difference where
  outer : List Frame
  below : List Operand
  below' : List Operand
  maxOperands : Nat
  maxFrames : Nat
  maxOperands' : Nat
  maxFrames' : Nat
  length_eq : below.length = below'.length
  maxOperands_le : maxOperands' ≤ maxOperands
  maxFrames_le : maxFrames' ≤ maxFrames

namespace Difference

def Excuses (D : Difference) (e : Error) : Prop :=
  e.category = .capacity ∧ ¬(D.maxOperands' = D.maxOperands ∧ D.maxFrames' = D.maxFrames)

/-- Under the same limits the stacks differ in operands alone. -/
def under (outer : List Frame) {below below' : List Operand}
    (h : below.length = below'.length) (maxOperands maxFrames : Nat) : Difference :=
  ⟨outer, below, below', maxOperands, maxFrames, maxOperands, maxFrames, h, Nat.le_refl _,
    Nat.le_refl _⟩

theorem not_excuses_under (outer : List Frame) {below below' : List Operand}
    (h : below.length = below'.length) (mo mf : Nat) (e : Error) :
    ¬(under outer h mo mf).Excuses e :=
  fun he => he.2 ⟨rfl, rfl⟩

/-- Operands of the two stacks under the same frames: one layer for each frame, and they are the
same down to those under the outer frames. -/
inductive Shared (D : Difference) : List Frame → List Operand → List Operand → Prop where
  | base (xs : List Operand) : Shared D D.outer (xs ++ D.below) (xs ++ D.below')
  | layer {f : Frame} {fs : List Frame} {ys ys' : List Operand} (xs : List Operand) :
      Shared D fs ys ys' → f.height = ys.length → Shared D (f :: fs) (xs ++ ys) (xs ++ ys')

inductive Alike (D : Difference) : Stack → Stack → Prop where
  | mk {fs : List Frame} {xs ys : List Operand} : D.Shared fs xs ys →
      Alike D ⟨xs, fs, D.maxOperands, D.maxFrames⟩ ⟨ys, fs, D.maxOperands', D.maxFrames'⟩

/-- Besides, a frame is open that lies above the operands that differ. -/
inductive Inside (D : Difference) : Stack → Stack → Prop where
  | mk {f : Frame} {fs : List Frame} {ys ys' : List Operand} (xs : List Operand) :
      D.Shared fs ys ys' → f.height = ys.length →
      Inside D ⟨xs ++ ys, f :: fs, D.maxOperands, D.maxFrames⟩
        ⟨xs ++ ys', f :: fs, D.maxOperands', D.maxFrames'⟩

variable {D : Difference} {s t : Stack} {fs : List Frame} {xs ys : List Operand}

theorem Shared.length_eq (h : D.Shared fs xs ys) : xs.length = ys.length := by
  induction h with
  | base xs => rw [List.length_append, List.length_append, D.length_eq]
  | layer xs _ _ ih => rw [List.length_append, List.length_append, ih]

theorem Shared.push (h : D.Shared fs xs ys) (os : List Operand) :
    D.Shared fs (os ++ xs) (os ++ ys) := by
  cases h with
  | base xs =>
    rw [← List.append_assoc, ← List.append_assoc]
    exact .base _
  | layer xs h hf =>
    rw [← List.append_assoc, ← List.append_assoc]
    exact .layer _ h hf

theorem Shared.split (h : D.Shared fs xs ys) :
    ∃ zs, xs = zs ++ D.below ∧ ys = zs ++ D.below' := by
  induction h with
  | base xs => exact ⟨xs, rfl, rfl⟩
  | layer xs _ _ ih =>
    obtain ⟨zs, rfl, rfl⟩ := ih
    exact ⟨xs ++ zs, by rw [List.append_assoc], by rw [List.append_assoc]⟩

theorem Inside.alike (h : D.Inside s t) : D.Alike s t := by
  cases h with
  | mk xs h hf => exact .mk (.layer xs h hf)

theorem Alike.inside (h : D.Alike s t) (hd : D.outer.length < s.depth) : D.Inside s t := by
  cases h with
  | mk h =>
    cases h with
    | base xs => exact absurd hd (Nat.lt_irrefl _)
    | layer xs h hf => exact .mk xs h hf

/-! ## Operations -/

theorem Alike.push (h : D.Alike s t) (os : List Operand) :
    D.Alike { s with operands := os ++ s.operands } { t with operands := os ++ t.operands } := by
  cases h with
  | mk h => exact .mk (h.push os)

theorem Inside.push (h : D.Inside s t) (os : List Operand) :
    D.Inside { s with operands := os ++ s.operands } { t with operands := os ++ t.operands } := by
  cases h with
  | mk xs h hf =>
    rw [← List.append_assoc, ← List.append_assoc]
    exact .mk (os ++ xs) h hf

/-- Both stacks are treated the same way and end up in `R`, or alike after a failure. -/
abbrev Together {α : Type} (D : Difference) (x : Check α) (s t : Stack)
    (R : Stack → Stack → Prop) : Prop :=
  Lockstep D.Excuses x x s t (fun _ _ => R) D.Alike

theorem excuses_operandOverflow {n : Nat} (h : D.maxOperands' < n) :
    D.Excuses (.operandOverflow D.maxOperands') ∨ D.maxOperands < n ∧
      Error.operandOverflow D.maxOperands = .operandOverflow D.maxOperands' := by
  by_cases hl : D.maxOperands' = D.maxOperands ∧ D.maxFrames' = D.maxFrames
  · rw [hl.1] at h ⊢
    exact .inr ⟨h, rfl⟩
  · exact .inl ⟨rfl, hl⟩

theorem excuses_controlOverflow {n : Nat} (h : D.maxFrames' ≤ n) :
    D.Excuses (.controlOverflow D.maxFrames') ∨ D.maxFrames ≤ n ∧
      Error.controlOverflow D.maxFrames = .controlOverflow D.maxFrames' := by
  by_cases hl : D.maxOperands' = D.maxOperands ∧ D.maxFrames' = D.maxFrames
  · rw [hl.2] at h ⊢
    exact .inr ⟨h, rfl⟩
  · exact .inl ⟨rfl, hl⟩

/-- There is room on both stacks or on none, unless a lower limit is in the way. -/
theorem Alike.reserve (h : D.Alike s t) (n : Nat) :
    D.Together (Stack.reserve n) s t fun s' t' => s' = s ∧ t' = t := by
  cases h with
  | @mk fs xs ys h =>
    have hlen := h.length_eq
    have hle := D.maxOperands_le
    refine .of_post (post_reserve.trans (by rw [ite_not])) (post_reserve.trans (by rw [ite_not]))
      (fun hn => ⟨?_, rfl, rfl⟩) fun hn => ?_
    · simp only [size] at *
      omega
    · rw [Decidable.not_not] at hn
      rcases excuses_operandOverflow hn with hX | ⟨hn, he⟩
      · exact .inl hX
      · refine .inr ⟨?_, he, .mk h⟩
        simp only [size, hlen] at *
        omega

theorem Alike.pushAll (h : D.Alike s t) (ts : List ValueType) {R : Stack → Stack → Prop}
    (hr : R { s with operands := ts.reverse.map .known ++ s.operands }
      { t with operands := ts.reverse.map .known ++ t.operands }) :
    D.Together (Stack.pushAll ts) s t R := by
  refine (h.reserve ts.length).bind ?_
  rintro - - _ _ ⟨rfl, rfl⟩
  exact .modify hr

theorem Inside.pushOperand (h : D.Inside s t) (o : Operand) :
    D.Together (Stack.pushOperand o) s t D.Inside := by
  refine (h.alike.reserve 1).bind ?_
  rintro - - _ _ ⟨rfl, rfl⟩
  exact .modify (h.push [o])

theorem Alike.openFrame (h : D.Alike s t) (kind : FrameKind) (ps rs : List ValueType) :
    D.Together (Stack.openFrame kind ps rs) s t D.Inside := by
  refine .get (.guard ?_ ?_ ?_)
  · cases h with
    | mk => exact Nat.le_trans D.maxFrames_le
  · have ha := h
    cases h with
    | mk =>
      intro hn
      rcases excuses_controlOverflow hn with hX | ⟨hn, he⟩
      · exact .inl hX
      · exact .inr ⟨hn, he, ha⟩
  · refine (h.pushAll ps (R := fun s' t' => s' = _ ∧ t' = _) ⟨rfl, rfl⟩).bind ?_
    rintro - - _ _ ⟨rfl, rfl⟩
    refine .modify ?_
    cases h with
    | mk h =>
      rw [size, size, h.length_eq]
      exact .mk _ h h.length_eq.symm

theorem Inside.operand?_eq (h : D.Inside s t) (n : Nat) : s.operand? n = t.operand? n := by
  cases h with
  | mk xs h hf => rw [operand?_framed hf, operand?_framed (hf.trans h.length_eq)]

/-- Frames are the same on both stacks, those above and those under the operands that differ. -/
theorem Inside.labelTypes (h : D.Inside s t) (l : UInt32) :
    Lockstep D.Excuses (Stack.labelTypes l) (Stack.labelTypes l) s t
      (fun ts us s' t' => ts = us ∧ D.Inside s' t') D.Alike := by
  cases h with
  | @mk f fs ys ys' xs h hf =>
    show Agree _ _ _ (Stack.labelTypes l _) (Stack.labelTypes l _)
    cases hg : (f :: fs)[l.toNat]? with
    | none =>
      simp only [Stack.labelTypes, hg]
      exact .error (.mk (.layer xs h hf))
    | some g =>
      simp only [Stack.labelTypes, hg]
      exact .ok ⟨rfl, .mk xs h hf⟩

theorem Inside.peekAll (h : D.Inside s t) (ts : List ValueType) (d : String) :
    D.Together (Stack.peekAll ts d) s t D.Inside := by
  cases h with
  | mk xs h hf =>
    have hf' := hf.trans h.length_eq
    refine .of_post (post_peekAll hf) (post_peekAll hf') (fun hc => ⟨hc, .mk _ h hf⟩) fun hc => ?_
    rw [mismatch_framed hf, mismatch_framed hf']
    exact .inr ⟨hc, rfl, .mk (.layer xs h hf)⟩

theorem Inside.discard (h : D.Inside s t) (n : Nat) :
    D.Together (Stack.discard n) s t D.Inside := by
  cases h with
  | mk xs h hf =>
    exact .of_always (post_discard hf) (post_discard (hf.trans h.length_eq)) (.mk _ h hf)

theorem Inside.takeTop (h : D.Inside s t) : D.Together Stack.takeTop s t D.Inside := by
  cases h with
  | mk xs h hf =>
    exact .of_always (post_takeTop hf) (post_takeTop (hf.trans h.length_eq)) (.mk _ h hf)

theorem Inside.popAny (h : D.Inside s t) (d : String) :
    D.Together (Stack.popAny d) s t D.Inside := by
  cases h with
  | mk xs h hf =>
    exact .of_post ((post_popAny hf).trans (by rw [ite_not]))
      ((post_popAny (hf.trans h.length_eq)).trans (by rw [ite_not]))
      (fun hc => ⟨hc, .mk _ h hf⟩) fun hc => .inr ⟨hc, rfl, .mk (.layer xs h hf)⟩

theorem Inside.popReference (h : D.Inside s t) (d : String) :
    D.Together (Stack.popReference d) s t D.Inside := by
  cases h with
  | mk xs h hf =>
    exact .of_post (post_popReference hf) (post_popReference (hf.trans h.length_eq))
      (fun hc => ⟨hc, .mk _ h hf⟩) fun hc => .inr ⟨hc, rfl, .mk (.layer xs h hf)⟩

theorem Inside.checkSelect (h : D.Inside s t) : D.Together Op.checkSelect s t D.Inside := by
  refine ((h.peekAll _ _).bind fun _ _ _ _ h => h.takeTop).bind fun _ _ s t h => .get ?_
  rw [h.operand?_eq, h.operand?_eq]
  split
  · refine .guard id (fun hr => .inr ⟨hr, rfl, h.alike⟩) ?_
    refine ((h.peekAll _ _).bind fun _ _ _ _ h => h.discard _).bind fun _ _ s t h => ?_
    exact h.pushOperand _
  · refine (h.popAny _).bind fun _ _ s t h => (h.popAny _).bind fun _ _ s t h => ?_
    exact h.pushOperand _

theorem Inside.markUnreachable (h : D.Inside s t) :
    D.Together Stack.markUnreachable s t D.Inside := by
  cases h with
  | mk xs h hf =>
    exact .of_always (post_markUnreachable hf) (post_markUnreachable (hf.trans h.length_eq))
      (.mk [] h hf)

theorem Inside.currentFrame (h : D.Inside s t) :
    Lockstep D.Excuses Stack.currentFrame Stack.currentFrame s t
      (fun f g s' t' => f = g ∧ D.Inside s' t') D.Alike := by
  cases h with
  | mk xs h hf => exact .ok ⟨rfl, .mk xs h hf⟩

theorem Inside.closeFrame (h : D.Inside s t) (d : String) :
    Lockstep D.Excuses (Stack.closeFrame d) (Stack.closeFrame d) s t
      (fun f g s' t' => f = g ∧ D.Alike s' t') D.Alike := by
  cases h with
  | mk xs h hf =>
    exact .of_post (post_closeFrame hf) (post_closeFrame (hf.trans h.length_eq))
      (fun hc => ⟨hc, rfl, .mk h⟩) fun hc => .inr ⟨hc, rfl, .mk (.layer xs h hf)⟩

theorem respected (D : Difference) : Respected D.Excuses D.Inside D.Alike where
  weaken := Inside.alike
  currentFrame h := h.currentFrame.mono fun _ _ _ _ h => ⟨congrArg _ h.1, h.2⟩
  labelTypes l h := h.labelTypes l
  peekAll ts d h := h.peekAll ts d
  discard n h := h.discard n
  takeTop h := h.takeTop
  popAny d h := h.popAny d
  popReference d h := h.popReference d
  push ty h := h.pushOperand (.known ty)
  pushAll ts h := h.alike.pushAll ts (h.push _)
  checkSelect h := h.checkSelect
  markUnreachable h := h.markUnreachable
  openFrame kind ps rs h := h.openFrame kind ps rs
  closeFrame d h := (h.closeFrame d).mono fun _ _ _ _ h =>
    ⟨⟨congrArg _ h.1, congrArg _ h.1⟩, h.2⟩
  handOn ts h := h.pushAll ts (h.push _)

end Difference

end WasmCheck.Stack
