import WasmCheck.Proofs.Body.Invariant

/-!
# Closing and reopening

An `else` closes the first branch of an if and opens the second, and the `end` of an if that has no
second branch does the same on its way. Were the second frame refused for a limit, the first one
would be lost. It never is: every open frame has had room for its parameters, and keeps it. The
results of a construct need no more room than its operands had, unless unreachable code supplies
some of them.
-/

namespace WasmCheck

open Operand (known)
open Stack Attempt

theorem Stack.length_le_of_fits {os : List Operand} {ts : List ValueType}
    (h : fits false os ts = true) : ts.length ≤ os.length := by
  induction ts generalizing os with
  | nil => exact Nat.zero_le _
  | cons t ts ih =>
    cases os with
    | nil => cases h
    | cons o os =>
      rw [fits, Bool.and_eq_true] at h
      exact Nat.succ_le_succ (ih h.2)

/-- A frame that closes holds as many operands as it has results, or unreachable code supplies the
others. -/
theorem Stack.length_of_closes {f : Frame} {xs : List Operand} (h : closes f xs = true) :
    xs.length = f.results.length ∨ f.unreachable = true ∧ xs.length < f.results.length := by
  rw [closes, Bool.and_eq_true, decide_eq_true_eq] at h
  obtain ⟨hle, hfits⟩ := h
  rcases Nat.lt_or_eq_of_le hle with hlt | heq
  · refine .inr ⟨Bool.of_not_eq_false fun hu => ?_, hlt⟩
    rw [hu] at hfits
    have := length_le_of_fits hfits
    rw [List.length_reverse] at this
    omega
  · exact .inl heq

section Rules
variable {results : List ValueType} {mo mf : Nat} {f g : Frame} {fs : List Frame}
  {xs below : List Operand}

/-- The innermost frame is no if and not that of the function, and unreachable code has to supply
some of its results. -/
def Stack.LacksResults (s : Stack) : Prop :=
  ∃ f, s.frames.head? = some f ∧ f.kind ∈ [.block, .loop, .else_] ∧ f.unreachable = true ∧
    s.available < f.results.length

namespace Stack.Opened

theorem capacity_leave (h : Opened results mo mf f (g :: fs) xs below) (d : String) :
    Post (Instr.leave d) ⟨xs ++ below, f :: g :: fs, mo, mf⟩ (fun _ _ => True)
      (fun e _ => e.category = .capacity →
        f.unreachable = true ∧ xs.length < f.results.length) := by
  rw [WasmCheck.post_leave h.layered.height]
  split
  · next hc =>
    split
    · next hmo =>
      refine fun _ => (length_of_closes hc).resolve_left fun hlen => ?_
      have hn := h.size_le
      rw [List.length_append] at hn
      omega
    · trivial
  · intro hcap
    cases hcap

theorem atomic_else (h : Opened results mo mf f fs xs below) :
    Post Instr.checkElse ⟨xs ++ below, f :: fs, mo, mf⟩ (fun _ _ => True)
      (fun e s => s = ⟨xs ++ below, f :: fs, mo, mf⟩ ∧ e.category ≠ .capacity) := by
  rw [post_checkElse]
  split
  · next hk =>
    cases fs with
    | nil => exact absurd (h.layered.function_iff.2 rfl) (by simp [hk])
    | cons g fs =>
      rw [h.post_switch]
      split
      · trivial
      · exact ⟨rfl, by simp [Error.category]⟩
  · exact ⟨rfl, by simp [Error.category, Error.elseWithoutIf]⟩

/-- The function hands its results to nobody, and the second branch of an if that has none holds
all its results. -/
theorem capacity_end (h : Opened results mo mf f fs xs below) :
    Post Instr.checkEnd ⟨xs ++ below, f :: fs, mo, mf⟩ (fun _ _ => True)
      (fun e _ => e.category = .capacity → LacksResults ⟨xs ++ below, f :: fs, mo, mf⟩) := by
  rw [post_checkEnd]
  cases fs with
  | nil =>
    rw [h.layered.function_iff.2 rfl]
    simp only
    rw [post_closeFrame h.layered.height]
    split
    · trivial
    · intro hcap
      cases hcap
  | cons g fs =>
    cases hk : f.kind with
    | function => cases h.layered.function_iff.1 hk
    | if_ =>
      simp only [post_bind, h.post_switch]
      split
      · refine (h.second.capacity_leave _).mono (fun _ _ h => h) fun e _ he hcap => ?_
        cases (he hcap).1
      · intro hcap
        cases hcap
    | block | loop | else_ =>
      refine (h.capacity_leave _).mono (fun _ _ h => h) fun e _ he hcap => ?_
      obtain ⟨hu, hlt⟩ := he hcap
      exact ⟨f, rfl, by simp [hk], hu, by rwa [available_framed h.layered.height]⟩

end Stack.Opened

namespace Stack.Kept

variable {c : Context} {s : Stack}

theorem atomic_else (h : Kept results mo mf s) :
    Post (Instr.check c .else_) s (fun _ _ => True)
      (fun e s' => s' = s ∧ e.category ≠ .capacity) := by
  cases h with
  | closed => exact post_check_nil.2 ⟨rfl, by simp [Error.afterEnd, Error.category]⟩
  | opened h => exact post_check.2 h.atomic_else

theorem capacity_end (h : Kept results mo mf s) :
    Post (Instr.check c .end_) s (fun _ _ => True)
      (fun e _ => e.category = .capacity → s.LacksResults) := by
  cases h with
  | closed =>
    refine post_check_nil.2 fun hcap => ?_
    cases hcap
  | opened h => exact (post_check (i := .end_)).2 h.capacity_end

end Stack.Kept

end Rules

namespace BodyChecker

/-- Whatever instructions have been fed to a checker, with failures among them: an `else` that fails
leaves the checker as it was, and not for lack of room; the `end` of an if does not fail for lack of
room either; and if another `end` does, then unreachable code has to supply results. -/
theorem reopens_feed (m : Module) (t : FuncType) (groups : List LocalGroup) (config : Config)
    (k : BodyChecker) (h : start m t groups config = .ok k) (is : List Instr) :
    (∀ e, ((k.feed is).check .else_).1 = .error e →
      ((k.feed is).check .else_).2 = k.feed is ∧ e.category ≠ .capacity) ∧
    (∀ f e, (k.feed is).stack.frames.head? = some f → f.kind = .if_ →
      ((k.feed is).check .end_).1 = .error e → e.category ≠ .capacity) ∧
    ∀ e, ((k.feed is).check .end_).1 = .error e → e.category = .capacity →
      (k.feed is).stack.LacksResults := by
  have hkept := kept_feed is (kept_of_start h)
  generalize k.feed is = k' at hkept ⊢
  refine ⟨fun e he => ?_, fun f e hf hk he hcap => ?_, fun e he => ?_⟩
  · obtain ⟨hs, hcap⟩ := (hkept.atomic_else (c := k'.context)).of_fst_error he
    exact ⟨congrArg (BodyChecker.mk k'.context) hs, hcap⟩
  · obtain ⟨f', hf', hk', -⟩ := hkept.capacity_end.of_fst_error he hcap
    rw [hf] at hf'
    cases hf'
    simp [hk] at hk'
  · exact hkept.capacity_end.of_fst_error he

/-- The block gives two results that dead code supplies, and there is room for one. -/
theorem reopens_feed_block :
    ((initial (Module.empty.addType ⟨[], [.i32, .i64]⟩).2 ⟨[], []⟩ [] { maxOperands := 1 }).feed
      [.else_, .block (.index 0), .op .unreachable]).stack.LacksResults :=
  (reopens_feed (Module.empty.addType ⟨[], [.i32, .i64]⟩).2 ⟨[], []⟩ [] { maxOperands := 1 }
    (initial ..) rfl [.else_, .block (.index 0), .op .unreachable]).2.2 (.operandOverflow 1) rfl rfl

end BodyChecker

end WasmCheck
