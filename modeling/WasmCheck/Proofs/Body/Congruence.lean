import WasmCheck.Body.Rules
import WasmCheck.Proofs.Lockstep

/-!
# Rules respect what the operations respect

An instruction looks at the stack through the operations only. So whatever relation between two
stacks the operations keep, when they are applied to both in lockstep, each instruction keeps too.
-/

namespace WasmCheck

open Attempt

namespace Stack

variable {X : Error → Prop} {I A : Stack → Stack → Prop}

/-- The operations respect `I`, which relates stacks with a frame open on them, and `A`, which may
also relate what is left when the frame has been closed, or when an operation has failed. -/
structure Respected (X : Error → Prop) (I A : Stack → Stack → Prop) : Prop where
  weaken {s t : Stack} : I s t → A s t
  currentFrame {s t : Stack} : I s t → Lockstep X currentFrame currentFrame s t
    (fun f g s' t' => f.kind = g.kind ∧ I s' t') A
  labelTypes {s t : Stack} (l : UInt32) : I s t → Lockstep X (labelTypes l) (labelTypes l) s t
    (fun ts us s' t' => ts = us ∧ I s' t') A
  peekAll {s t : Stack} (ts : List ValueType) (d : String) : I s t →
    Lockstep X (peekAll ts d) (peekAll ts d) s t (fun _ _ => I) A
  discard {s t : Stack} (n : Nat) : I s t →
    Lockstep X (discard n) (discard n) s t (fun _ _ => I) A
  takeTop {s t : Stack} : I s t → Lockstep X takeTop takeTop s t (fun _ _ => I) A
  popAny {s t : Stack} (d : String) : I s t →
    Lockstep X (popAny d) (popAny d) s t (fun _ _ => I) A
  popReference {s t : Stack} (d : String) : I s t →
    Lockstep X (popReference d) (popReference d) s t (fun _ _ => I) A
  push {s t : Stack} (ty : ValueType) : I s t →
    Lockstep X (push ty) (push ty) s t (fun _ _ => I) A
  pushAll {s t : Stack} (ts : List ValueType) : I s t →
    Lockstep X (pushAll ts) (pushAll ts) s t (fun _ _ => I) A
  checkSelect {s t : Stack} : I s t →
    Lockstep X Op.checkSelect Op.checkSelect s t (fun _ _ => I) A
  markUnreachable {s t : Stack} : I s t →
    Lockstep X markUnreachable markUnreachable s t (fun _ _ => I) A
  openFrame {s t : Stack} (kind : FrameKind) (ps rs : List ValueType) : A s t →
    Lockstep X (openFrame kind ps rs) (openFrame kind ps rs) s t (fun _ _ => I) A
  closeFrame {s t : Stack} (d : String) : I s t →
    Lockstep X (closeFrame d) (closeFrame d) s t
      (fun f g s' t' => (f.params = g.params ∧ f.results = g.results) ∧ A s' t') A
  /-- The results of a frame that was closed. -/
  handOn {s t : Stack} (ts : List ValueType) : A s t →
    Lockstep X (Stack.pushAll ts) (Stack.pushAll ts) s t (fun _ _ => A) A

namespace Respected

variable {s t : Stack} {c : Context}

theorem popAll (hR : Respected X I A) (ts : List ValueType) (d : String) (h : I s t) :
    Lockstep X (Stack.popAll ts d) (Stack.popAll ts d) s t (fun _ _ => I) A :=
  (hR.peekAll ts d h).bind fun _ _ _ _ h => hR.discard _ h

theorem pop (hR : Respected X I A) (ty : ValueType) (d : String) (h : I s t) :
    Lockstep X (Stack.pop ty d) (Stack.pop ty d) s t (fun _ _ => I) A :=
  (hR.peekAll [ty] d h).bind fun _ _ _ _ h => hR.takeTop h

theorem fixed (hR : Respected X I A) (o : FixedOp) (h : I s t) :
    Lockstep X (o.check c) (o.check c) s t (fun _ _ => I) A := by
  refine (Lockstep.ofExcept (Q := fun ty ty' s t => ty = ty' ∧ I s t) (fun _ => ⟨rfl, h⟩)
    (hR.weaken h)).bind ?_
  rintro ty _ s t ⟨rfl, h⟩
  exact (hR.popAll _ _ h).bind fun _ _ s t h => hR.pushAll _ h

theorem jump (hR : Respected X I A) (ts : List ValueType) (d : String) (h : I s t) :
    Lockstep X (Stack.popAll ts d >>= fun _ => Stack.markUnreachable)
      (Stack.popAll ts d >>= fun _ => Stack.markUnreachable) s t (fun _ _ => I) A :=
  (hR.popAll ts d h).bind fun _ _ _ _ h => hR.markUnreachable h

theorem checkLabels (hR : Respected X I A) (default_ : List ValueType) (ls : List UInt32)
    (h : I s t) :
    Lockstep X (Op.checkLabels default_ ls) (Op.checkLabels default_ ls) s t (fun _ _ => I) A := by
  induction ls generalizing s t with
  | nil => exact .pure h
  | cons l ls ih =>
    refine (hR.labelTypes l h).bind ?_
    rintro ts _ s t ⟨rfl, h⟩
    refine .guard id (fun hn => .inr ⟨hn, rfl, hR.weaken h⟩) ?_
    exact (hR.peekAll ts _ h).bind fun _ _ s t h => ih h

theorem checkBrTable (hR : Respected X I A) (ls : List UInt32) (l : UInt32) (h : I s t) :
    Lockstep X (Op.checkBrTable ls l) (Op.checkBrTable ls l) s t (fun _ _ => I) A := by
  refine (hR.pop _ _ h).bind fun _ _ s t h => (hR.labelTypes l h).bind ?_
  rintro ts _ s t ⟨rfl, h⟩
  refine (hR.checkLabels ts ls h).bind fun _ _ s t h => ?_
  exact (hR.peekAll _ _ h).bind fun _ _ s t h => hR.markUnreachable h

theorem op (hR : Respected X I A) (o : Op) (h : I s t) :
    Lockstep X (o.check c) (o.check c) s t (fun _ _ => I) A := by
  cases o with
  | unreachable => exact hR.markUnreachable h
  | nop => exact .pure h
  | br l =>
    refine (hR.labelTypes l h).bind ?_
    rintro ts _ s t ⟨rfl, h⟩
    exact hR.jump ts _ h
  | brIf l =>
    refine (hR.pop _ _ h).bind fun _ _ s t h => (hR.labelTypes l h).bind ?_
    rintro ts _ s t ⟨rfl, h⟩
    exact (hR.popAll _ _ h).bind fun _ _ s t h => hR.pushAll _ h
  | brTable ls l => exact hR.checkBrTable ls l h
  | return_ => exact hR.jump _ _ h
  | drop => exact (hR.popAny _ h).bind fun _ _ s t h => .pure h
  | select => exact hR.checkSelect h
  | refIsNull => exact (hR.popReference _ h).bind fun _ _ s t h => hR.push _ h
  | fixed o => exact hR.fixed o h

/-! ## Markers -/

theorem enter (hR : Respected X I A) (kind : FrameKind) (ty : FuncType) (h : I s t) :
    Lockstep X (Instr.enter kind ty) (Instr.enter kind ty) s t (fun _ _ => A) A :=
  (hR.popAll _ _ h).bind fun _ _ _ _ h =>
    (hR.openFrame _ _ _ (hR.weaken h)).mono fun _ _ _ _ => hR.weaken

theorem switch (hR : Respected X I A) (h : I s t) :
    Lockstep X Instr.switch Instr.switch s t (fun _ _ => I) A := by
  refine (hR.closeFrame _ h).bind ?_
  rintro f g s t ⟨⟨hp, hr⟩, h⟩
  rw [hp, hr]
  exact hR.openFrame _ _ _ h

theorem leave (hR : Respected X I A) (d : String) (h : I s t) :
    Lockstep X (Instr.leave d) (Instr.leave d) s t (fun _ _ => A) A := by
  refine (hR.closeFrame d h).bind ?_
  rintro f g s t ⟨⟨-, hr⟩, h⟩
  rw [hr]
  exact hR.handOn _ h

theorem checkEnd (hR : Respected X I A) (h : I s t) :
    Lockstep X Instr.checkEnd Instr.checkEnd s t (fun _ _ => A) A := by
  refine (hR.currentFrame h).bind ?_
  rintro f g s t ⟨hk, h⟩
  rw [hk]
  cases g.kind with
  | function => exact (hR.closeFrame _ h).bind fun _ _ s t h => .pure h.2
  | if_ => exact (hR.switch h).bind fun _ _ s t h => hR.leave _ h
  | _ => exact hR.leave _ h

theorem checkElse (hR : Respected X I A) (h : I s t) :
    Lockstep X Instr.checkElse Instr.checkElse s t (fun _ _ => I) A := by
  refine (hR.currentFrame h).bind ?_
  rintro f g s t ⟨hk, h⟩
  rw [hk]
  exact .guard id (fun hg => .inr ⟨hg, rfl, hR.weaken h⟩) (hR.switch h)

/-- Each rule respects the relations; only the end of a frame need not keep `I`. -/
theorem rule (hR : Respected X I A) (i : Instr) (h : I s t) :
    Lockstep X (i.rule c) (i.rule c) s t (fun _ _ => A) A := by
  have found (r : Except Error FuncType) : Lockstep X (Attempt.ofExcept r) (Attempt.ofExcept r)
      s t (fun ty ty' s t => ty = ty' ∧ I s t) A := .ofExcept (fun _ => ⟨rfl, h⟩) (hR.weaken h)
  cases i with
  | block _ =>
    refine (found _).bind ?_
    rintro ty _ s t ⟨rfl, h⟩
    exact hR.enter _ ty h
  | loop _ =>
    refine (found _).bind ?_
    rintro ty _ s t ⟨rfl, h⟩
    exact hR.enter _ ty h
  | if_ _ =>
    refine (found _).bind ?_
    rintro ty _ s t ⟨rfl, h⟩
    exact (hR.pop _ _ h).bind fun _ _ s t h => hR.enter _ ty h
  | else_ => exact (hR.checkElse h).mono fun _ _ _ _ => hR.weaken
  | end_ => exact hR.checkEnd h
  | op o => exact (hR.op o h).mono fun _ _ _ _ => hR.weaken

theorem check (hR : Respected X I A) (i : Instr) (h : I s t) :
    Lockstep X (i.check c) (i.check c) s t (fun _ _ => A) A :=
  (hR.currentFrame h).bind fun _ _ _ _ h => hR.rule i h.2

end Respected

end Stack

end WasmCheck
