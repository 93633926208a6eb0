import WasmCheck.Proofs.Stack.Looser
import WasmCheck.Proofs.Body.Invariant

/-!
# Dead code

Code behind an `unreachable` is checked with more left open than the same code in its place without
it. So the instruction may be put before any other one of a body that is accepted.
-/

namespace WasmCheck

open Stack Attempt

section Rules
variable {c : Context} {results : List ValueType} {mo mf : Nat} {s t : Stack}

theorem Stack.Looser.check (h : Looser s t) (i : Instr) :
    Follows (i.check c) s t fun _ _ => Looser := by
  by_cases ht : t.frames = []
  · refine .of_follows ?_
    obtain ⟨ys, gs, mo, mf⟩ := t
    cases ht
    exact post_check_nil.2 trivial
  · exact LooserInside.respected.check i (h.inside ht)

theorem Stack.Looser.checkAll (h : Looser s t) (is : List Instr) :
    Follows (Instr.checkAll c is) s t fun _ _ => Looser := by
  induction is generalizing s t with
  | nil => exact .pure h
  | cons i is ih => exact (h.check i).bind fun _ _ s t h => ih h

theorem Stack.Kept.keeps_checkAll (h : Kept results mo mf s) (is : List Instr) :
    Keeps results mo mf (Instr.checkAll c is) s := by
  induction is generalizing s with
  | nil => exact h
  | cons i is ih =>
    rw [Keeps, Instr.checkAll, post_bind]
    exact (h.keeps_check i).mono (fun _ _ h => ih h) fun _ _ h => h

/-- A stack in order is as loose as itself, and looser if its innermost frame holds less. -/
theorem Stack.Layered.loosened {f g : Frame} {fs : List Frame} {xs ys below : List Operand}
    (h : Layered results mo g fs ys below) (hl : f.Looser g) (hf : f.height = g.height)
    (hc : Covers f.unreachable xs ys) :
    Loosened (f :: fs) (xs ++ below) (g :: fs) (ys ++ below) := by
  induction h generalizing f xs with
  | function => exact .layer (.closed []) hl hf rfl hc
  | inner h _ hh _ _ ih =>
    exact .layer (ih (.refl _) rfl (.refl _ _)) hl (hf.trans hh) hh hc

theorem Stack.Kept.post_unreachable (h : Kept results mo mf s) (hs : s.frames ≠ []) :
    Post (Instr.check c (.op .unreachable)) s (fun _ s' => Looser s' s) fun _ _ => False := by
  cases h with
  | closed => exact absurd rfl hs
  | @opened f fs xs below h =>
    have hl : Loosened ({ f with unreachable := true } :: fs) ([] ++ below) (f :: fs)
        (xs ++ below) :=
      h.layered.loosened ⟨rfl, rfl, rfl, fun _ => rfl⟩ rfl (.gap rfl xs)
    exact post_check.2 ((post_markUnreachable h.layered.height).2 (.mk hl))

theorem frames_ne_nil_of_checkAll {is : List Instr} {Q : Unit → Stack → Prop} (hi : is ≠ [])
    (h : Post (Instr.checkAll c is) s Q fun _ _ => False) : s.frames ≠ [] := by
  intro hs
  obtain ⟨i, is, rfl⟩ := List.exists_cons_of_ne_nil hi
  obtain ⟨xs, fs, mo, mf⟩ := s
  cases hs
  rw [Instr.checkAll, post_bind] at h
  exact post_check_nil.1 h

end Rules

namespace BodyChecker

/-- An `unreachable` may be put before any instruction of a body that is accepted: the body is still
accepted, within the same limits, and the checker ends in the same state. -/
theorem steps_insert_unreachable (m : Module) (t : FuncType) (groups : List LocalGroup)
    (config : Config) (k k' : BodyChecker) (hk : start m t groups config = .ok k)
    (is js : List Instr) (hj : js ≠ []) (ls ls' : List Located)
    (hl : ls.map (·.instr) = is ++ js) (hl' : ls'.map (·.instr) = is ++ .op .unreachable :: js)
    (hs : k.steps ls = .ok k') (hf : k'.finished = true) : k.steps ls' = .ok k' := by
  obtain ⟨hc, hrun⟩ := steps_eq_ok_iff.1 hs
  have hclosed : k'.stack.frames = [] := by simpa [finished, depth] using hf
  rw [hl, ← post_eq_iff, post_checkAll_append] at hrun
  rw [steps_eq_ok_iff, hl', ← post_eq_iff, post_checkAll_append]
  refine ⟨hc, (hrun.and ((kept_of_start hk).keeps_checkAll is)).mono ?_ fun _ _ h => h.1⟩
  rintro - s ⟨hjs, hkept⟩
  rw [Instr.checkAll, post_bind]
  refine (hkept.post_unreachable (frames_ne_nil_of_checkAll hj hjs)).mono ?_ fun _ _ h => h
  intro _ s' hloose
  refine ((hloose.checkAll js).post hjs).mono ?_ fun _ _ h => h
  rintro - u ⟨-, _, hu, rfl⟩
  exact hu.eq_of_frames_nil hclosed

/-- The operand of a block is given up in front of a conditional jump, which then supplies one of
its own. There is room for two operands, no more than the body needs. -/
theorem steps_insert_unreachable_brIf :
    (initial .empty ⟨[], [.i32]⟩ [] { maxOperands := 2, maxFrames := 2 }).steps
        [⟨1, .block (.result .i32)⟩, ⟨3, .op (.fixed (.i32Const 0))⟩,
          ⟨5, .op (.fixed (.i32Const 1))⟩, ⟨7, .op .unreachable⟩, ⟨8, .op (.brIf 0)⟩, ⟨10, .end_⟩,
          ⟨11, .end_⟩] =
      .ok ⟨⟨.empty, ⟨[], []⟩, [.i32]⟩, ⟨[], [], 2, 2⟩⟩ :=
  steps_insert_unreachable .empty ⟨[], [.i32]⟩ [] { maxOperands := 2, maxFrames := 2 } (initial ..)
    _ rfl [.block (.result .i32), .op (.fixed (.i32Const 0)), .op (.fixed (.i32Const 1))]
    [.op (.brIf 0), .end_, .end_] (by simp)
    [⟨1, .block (.result .i32)⟩, ⟨3, .op (.fixed (.i32Const 0))⟩, ⟨5, .op (.fixed (.i32Const 1))⟩,
      ⟨7, .op (.brIf 0)⟩, ⟨9, .end_⟩, ⟨10, .end_⟩]
    _ rfl rfl rfl rfl

end BodyChecker

end WasmCheck
