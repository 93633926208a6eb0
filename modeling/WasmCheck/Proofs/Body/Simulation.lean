import WasmCheck.Proofs.Lockstep
import WasmCheck.Proofs.Body.Run

/-!
# Two checks side by side

Two checkers are fed the same instructions. If a relation between them is kept by each instruction,
up to errors that the second one is excused for, then it is kept by runs, and two checks that start
related have outcomes that coincide.
-/

namespace WasmCheck

open Stack Attempt

namespace BodyChecker

variable {X : Error → Prop} {R : BodyChecker → BodyChecker → Prop} {k k' : BodyChecker}

/-- Related checkers have equally many frames open, and each instruction keeps them related. -/
structure Simulation (X : Error → Prop) (R : BodyChecker → BodyChecker → Prop) : Prop where
  depth {k k' : BodyChecker} : R k k' → k.stack.depth = k'.stack.depth
  check {k k' : BodyChecker} (i : Instr) : R k k' →
    Lockstep X (i.check k.context) (i.check k'.context) k.stack k'.stack
      (fun _ _ s s' => R { k with stack := s } { k' with stack := s' }) fun _ _ => True

namespace Simulation

theorem steps (hS : Simulation X R) (h : R k k') (ls : List Located) :
    Coincide (fun d => X d.error) R (k.steps ls) (k'.steps ls) := by
  induction ls generalizing k k' with
  | nil => exact .ok h
  | cons l ls ih =>
    have hcall : k.callback l.instr = k'.callback l.instr := by
      rw [callback, callback, hS.depth h]
    have hi := hS.check l.instr h
    rw [steps_cons, steps_cons, hcall]
    unfold Lockstep at hi
    generalize run (l.instr.check k.context) k.stack = r at hi
    generalize run (l.instr.check k'.context) k'.stack = r' at hi
    cases hi with
    | ok h => exact ih h
    | error => exact .error _
    | excused hX => exact .excused hX

theorem finish (hS : Simulation X R) (h : R k k') (endOffset : Nat) :
    Coincide (fun d => X d.error) Eq (k.finish endOffset) (k'.finish endOffset) := by
  unfold BodyChecker.finish finished
  rw [hS.depth h]
  exact .refl _

theorem checkBody (hS : Simulation X R) (m m' : Module) (config config' : Config)
    (b b' : FunctionBody) (hcode : b.code = b'.code) (hend : b.endOffset = b'.endOffset)
    (ht : Coincide X Eq (m.funcType b.typeIndex) (m'.funcType b'.typeIndex))
    (hstart : ∀ t, m'.funcType b'.typeIndex = .ok t →
      Coincide X R (start m t b.locals config) (start m' t b'.locals config')) :
    Coincide (fun d => X d.error) Eq (m.checkBody config b) (m'.checkBody config' b') := by
  unfold Module.checkBody
  rw [hcode, hend]
  refine .bind (ht.and_eq.mapError _ fun _ he => he) ?_
  rintro t _ ⟨rfl, ht⟩
  refine .bind ((hstart t ht).mapError _ fun _ he => he) fun k k' h => ?_
  exact (hS.steps h b'.code).bind fun k k' h => hS.finish h b'.endOffset

end Simulation

end BodyChecker

end WasmCheck
