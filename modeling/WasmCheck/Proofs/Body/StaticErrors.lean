import WasmCheck.Body.Rules

/-!
# Static errors

A body is refused for a broken rule or for a limit, and for nothing else: no error of a running
program comes up while a body is checked. This holds of every rule on every stack, in order or not.
-/

namespace WasmCheck

variable {α β : Type}

def OnlyStatic (x : Except Error α) : Prop := ∀ e, x = .error e → e.isValidation = true

namespace OnlyStatic

theorem ok (a : α) : OnlyStatic (.ok a) := fun _ h => nomatch h

theorem error {e : Error} (h : e.isValidation = true) : OnlyStatic (.error e : Except Error α) := by
  rintro _ ⟨⟩
  exact h

theorem bind {x : Except Error α} {f : α → Except Error β} (h : OnlyStatic x)
    (hf : ∀ a, OnlyStatic (f a)) : OnlyStatic (x >>= f) := by
  cases x with
  | ok a => exact hf a
  | error e => exact .error (h e rfl)

theorem ite {c : Prop} [Decidable c] {x y : Except Error α} (hx : OnlyStatic x)
    (hy : OnlyStatic y) : OnlyStatic (if c then x else y) := by
  split
  · exact hx
  · exact hy

end OnlyStatic

/-! ## Look-ups -/

theorem lookup_onlyStatic {space : String} {entries : List α} {i : UInt32} :
    OnlyStatic (lookup space entries i) := by
  intro e h
  obtain ⟨-, rfl⟩ := lookup_eq_error_iff.1 h
  rfl

namespace Module

variable (m : Module)

theorem functionType_onlyStatic (i : UInt32) : OnlyStatic (m.functionType i) :=
  lookup_onlyStatic.bind fun _ => lookup_onlyStatic

theorem checkAccess_onlyStatic (w : Nat) (arg : MemArg) : OnlyStatic (m.checkAccess w arg) :=
  lookup_onlyStatic.bind fun _ => .ite (.error rfl) (.ok _)

end Module

theorem Locals.typeOf_onlyStatic (l : Locals) (i : UInt32) : OnlyStatic (l.typeOf i) := by
  unfold typeOf
  split
  · exact .ok _
  · split
    · exact .ok _
    · exact .error rfl

theorem BlockType.funcType_onlyStatic (m : Module) (t : BlockType) : OnlyStatic (t.funcType m) := by
  cases t with
  | index i => exact lookup_onlyStatic
  | _ => exact .ok _

theorem TableOp.type_onlyStatic (m : Module) (o : TableOp) : OnlyStatic (o.type m) := by
  cases o with
  | copy | init =>
    exact lookup_onlyStatic.bind fun _ => lookup_onlyStatic.bind fun _ =>
      .ite (.ok _) (.error rfl)
  | _ => exact lookup_onlyStatic.bind fun _ => .ok _

theorem FixedOp.type_onlyStatic (c : Context) (o : FixedOp) : OnlyStatic (o.type c) := by
  cases o with
  | call i => exact c.module.functionType_onlyStatic i
  | callIndirect =>
    exact lookup_onlyStatic.bind fun _ =>
      .ite (lookup_onlyStatic.bind fun _ => .ok _) (.error rfl)
  | localGet i | localSet i | localTee i => exact (c.locals.typeOf_onlyStatic i).bind fun _ => .ok _
  | globalGet => exact lookup_onlyStatic.bind fun _ => .ok _
  | globalSet => exact lookup_onlyStatic.bind fun _ => .ite (.ok _) (.error rfl)
  | table o => exact o.type_onlyStatic c.module
  | refFunc i => exact (c.module.functionType_onlyStatic i).bind fun _ => .ok _
  | load o arg | store o arg => exact (c.module.checkAccess_onlyStatic _ arg).bind fun _ => .ok _
  | memorySize | memoryGrow => exact lookup_onlyStatic.bind fun _ => .ok _
  | _ => exact .ok _

/-! ## Attempts -/

namespace Attempt

variable {σ : Type}

def Static (x : Attempt σ α) : Prop := ∀ s, OnlyStatic (run x s).1

namespace Static

theorem pure (a : α) : Static (Pure.pure a : Attempt σ α) := fun _ => .ok a

theorem get : Static (MonadState.get : Attempt σ σ) := fun s => .ok s

theorem set (s : σ) : Static (set s : Attempt σ PUnit) := fun _ => OnlyStatic.ok PUnit.unit

theorem modify (f : σ → σ) : Static (modify f : Attempt σ PUnit) :=
  fun _ => OnlyStatic.ok PUnit.unit

theorem fail {e : Error} (h : e.isValidation = true) : Static (Attempt.fail e : Attempt σ α) :=
  fun _ => .error h

theorem ofExcept {x : Except Error α} (h : OnlyStatic x) :
    Static (Attempt.ofExcept x : Attempt σ α) := fun _ => h

theorem bind {x : Attempt σ α} {f : α → Attempt σ β} (h : Static x) (hf : ∀ a, Static (f a)) :
    Static (x >>= f) := by
  intro s
  have hs := h s
  rw [run_bind]
  generalize run x s = r at hs
  rcases r with ⟨e | a, t⟩
  · exact .error (hs e rfl)
  · exact hf a t

theorem ite {c : Prop} [Decidable c] {x y : Attempt σ α} (hx : Static x) (hy : Static y) :
    Static (if c then x else y) := by
  split
  · exact hx
  · exact hy

theorem guard {c : Prop} [Decidable c] {e : Error} {k : Unit → Attempt σ α}
    (h : e.isValidation = true) (hk : Static (k ())) :
    Static (if c then Attempt.fail e >>= k else k ()) :=
  .ite ((Static.fail h).bind fun _ => hk) hk

end Static

end Attempt

open Attempt

/-! ## Operations on the stack -/

namespace Stack

theorem static_reserve (n : Nat) : Static (reserve n) := by
  intro s
  unfold Attempt.run reserve
  split
  · exact .error rfl
  · exact .ok _

theorem static_pushOperand (o : Operand) : Static (pushOperand o) :=
  (static_reserve 1).bind fun _ => .modify _

theorem static_pushAll (ts : List ValueType) : Static (pushAll ts) :=
  (static_reserve _).bind fun _ => .modify _

theorem static_peekAll (ts : List ValueType) (d : String) : Static (peekAll ts d) := by
  intro s
  unfold Attempt.run peekAll
  split
  · exact .ok _
  · exact .error rfl

theorem static_popAll (ts : List ValueType) (d : String) : Static (popAll ts d) :=
  (static_peekAll ts d).bind fun _ => .modify _

theorem static_takeTop : Static takeTop := by
  intro s
  unfold Attempt.run takeTop
  split <;> exact .ok _

theorem static_pop (t : ValueType) (d : String) : Static (pop t d) :=
  (static_peekAll [t] d).bind fun _ => static_takeTop

theorem static_popAny (d : String) : Static (popAny d) :=
  Static.get.bind fun _ => .ite (.fail rfl) static_takeTop

theorem static_popReference (d : String) : Static (popReference d) := by
  refine Static.get.bind fun s => ?_
  split
  · exact .ite static_takeTop (.fail rfl)
  · exact static_takeTop
  · exact .ite (.pure _) (.fail rfl)

theorem static_currentFrame : Static currentFrame := by
  intro s
  unfold Attempt.run currentFrame
  split
  · exact .ok _
  · exact .error rfl

theorem static_openFrame (kind : FrameKind) (ps rs : List ValueType) :
    Static (openFrame kind ps rs) :=
  Static.get.bind fun _ => .guard rfl ((static_pushAll ps).bind fun _ => .modify _)

theorem static_closeFrame (d : String) : Static (closeFrame d) :=
  static_currentFrame.bind fun _ => Static.get.bind fun _ =>
    .ite ((Static.set _).bind fun _ => .pure _) (.fail rfl)

theorem static_labelTypes (l : UInt32) : Static (labelTypes l) := by
  intro s
  unfold Attempt.run labelTypes
  split
  · exact .ok _
  · exact .error rfl

end Stack

open Stack

/-! ## Rules -/

namespace Op

theorem static_checkLabels (default_ : List ValueType) (ls : List UInt32) :
    Static (checkLabels default_ ls) := by
  induction ls with
  | nil => exact .pure _
  | cons l ls ih =>
    exact (static_labelTypes l).bind fun ts => .guard rfl ((static_peekAll ts _).bind fun _ => ih)

theorem static_checkSelect : Static checkSelect := by
  refine (static_pop _ _).bind fun _ => Static.get.bind fun s => ?_
  split
  · exact .guard rfl ((static_popAll _ _).bind fun _ => static_pushOperand _)
  · exact (static_popAny _).bind fun _ => (static_popAny _).bind fun _ => static_pushOperand _

theorem static_check (c : Context) (o : Op) : Static (o.check c) := by
  cases o with
  | unreachable => exact .modify _
  | nop => exact .pure _
  | br l =>
    exact (static_labelTypes l).bind fun _ => (static_popAll _ _).bind fun _ => .modify _
  | brIf l =>
    exact (static_pop _ _).bind fun _ => (static_labelTypes l).bind fun _ =>
      (static_popAll _ _).bind fun _ => static_pushAll _
  | brTable ls l =>
    exact (static_pop _ _).bind fun _ => (static_labelTypes l).bind fun _ =>
      (static_checkLabels _ ls).bind fun _ => (static_peekAll _ _).bind fun _ => .modify _
  | return_ => exact (static_popAll _ _).bind fun _ => .modify _
  | drop => exact (static_popAny _).bind fun _ => .pure _
  | select => exact static_checkSelect
  | refIsNull => exact (static_popReference _).bind fun _ => static_pushOperand _
  | fixed o =>
    exact (Static.ofExcept (o.type_onlyStatic c)).bind fun _ => (static_popAll _ _).bind fun _ =>
      static_pushAll _

end Op

namespace Instr

theorem static_enter (kind : FrameKind) (t : FuncType) : Static (enter kind t) :=
  (static_popAll _ _).bind fun _ => static_openFrame _ _ _

theorem static_switch : Static switch :=
  (static_closeFrame _).bind fun _ => static_openFrame _ _ _

theorem static_leave (d : String) : Static (leave d) :=
  (static_closeFrame d).bind fun _ => static_pushAll _

theorem static_checkEnd : Static checkEnd := by
  refine static_currentFrame.bind fun f => ?_
  split
  · exact (static_closeFrame _).bind fun _ => .pure _
  · exact static_leave _
  · exact static_leave _
  · exact static_leave _
  · exact static_switch.bind fun _ => static_leave _

theorem static_checkElse : Static checkElse :=
  static_currentFrame.bind fun _ => .guard rfl static_switch

theorem static_check (c : Context) (i : Instr) : Static (i.check c) := by
  refine static_currentFrame.bind fun _ => ?_
  cases i with
  | block t | loop t =>
    exact (Static.ofExcept (t.funcType_onlyStatic c.module)).bind fun _ => static_enter _ _
  | if_ t =>
    exact (Static.ofExcept (t.funcType_onlyStatic c.module)).bind fun _ =>
      (static_pop _ _).bind fun _ => static_enter _ _
  | else_ => exact static_checkElse
  | end_ => exact static_checkEnd
  | op o => exact o.static_check c

end Instr

end WasmCheck
