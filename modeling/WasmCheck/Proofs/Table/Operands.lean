import WasmCheck.Proofs.Table.Footprint
import WasmCheck.Proofs.Typing.Basic

/-!
# Operands and results

A table instruction replaces its operands on top of the stack by its results. What lies deeper it
neither sees nor touches, whether it succeeds or fails on the way. So an invocation hands surplus
arguments back as they were, and with too few of them it fails.
-/

namespace WasmCheck

open Attempt Store

namespace TableOp

/-- The operands and results that are counted here are those of the type. -/
theorem HasType.lengths {m : Module} {o : TableOp} {ps rs : List ValueType}
    (h : o.HasType m ps rs) : ps.length = o.arity ∧ rs.length = o.coarity := by
  cases h <;> exact ⟨rfl, rfl⟩

variable {o : TableOp} {s t : Store} {args : List Value}

/-! ## Values below the operands -/

theorem run_execute_append {vs : List Value} {r : Except Error Unit} (h : o.arity ≤ vs.length)
    (hr : run o.execute { s with stack := vs } = (r, t)) (rest : List Value) :
    run o.execute { s with stack := vs ++ rest } = (r, { t with stack := t.stack ++ rest }) := by
  have hakin : Akin (fun _ => True) rest o.arity { s with stack := vs }
      { s with stack := vs ++ rest } := ⟨fun e _ => by simp, rfl, .inl h⟩
  obtain ⟨he, hs⟩ := (o.lockstep_execute hakin fun _ _ => trivial).eq fun _ => id
  rw [hr] at he hs
  refine Prod.ext he.symm (ext_entry (fun e => ?_) hs.stack)
  exact (hs.entries e trivial).trans (entry_withStack t _ e).symm

/-- Surplus arguments are handed back in front of the results. -/
theorem invoke_append (h : args.length = o.arity) (extra : List Value) (s : Store) :
    o.invoke (extra ++ args) s = ((o.invoke args s).1.map (extra ++ ·), (o.invoke args s).2) := by
  have henough : o.arity ≤ args.reverse.length := by simp [h]
  rcases hr : run o.execute { s with stack := args.reverse } with ⟨e | _, t⟩
  all_goals
    have hrun := run_execute_append henough hr extra.reverse
    rw [← List.reverse_append] at hrun
  · rw [invoke_of_error hr, invoke_of_error hrun]
    rfl
  · rw [invoke_of_ok hr, invoke_of_ok hrun, List.reverse_append, List.reverse_reverse]
    rfl

/-! ## Too few operands -/

theorem exists_error_of_lt (h : args.length < o.arity) (s : Store) :
    ∃ e t, run o.execute { s with stack := args.reverse } = (.error e, t) ∧ Same s t := by
  have hpost := o.post_execute_frame { s with stack := args.reverse }
  rcases hr : run o.execute { s with stack := args.reverse } with ⟨e | _, t⟩
  · have hsame : Same { s with stack := args.reverse } t := (hpost.of_error hr).same
    exact ⟨e, t, rfl, hsame.tables, hsame.segments⟩
  · have henough : o.arity ≤ args.reverse.length := (hpost.of_ok hr).enough
    rw [List.length_reverse] at henough
    exact absurd henough (Nat.not_le.2 h)

theorem invoke_of_lt (h : args.length < o.arity) (s : Store) :
    ∃ d, o.invoke args s = (.error d, { s with stack := [] }) := by
  obtain ⟨e, t, hr, -⟩ := exists_error_of_lt h s
  have hinvoke := invoke_of_error hr
  exact ⟨_, hinvoke.trans (Prod.ext rfl (invoke_error hinvoke))⟩

/-- On a stack with enough operands the outcome, the tables and segments, and the values above the
operands do not depend on what lies deeper, and that stays. There are the results after a success,
and the operands that have not been drawn after a failure. Surplus arguments of an invocation are
handed back; too few lead to a failure that changes nothing. -/
theorem stack_discipline (o : TableOp) (s : Store) :
    (∀ (m : Module) (ps rs : List ValueType), o.HasType m ps rs →
      ps.length = o.arity ∧ rs.length = o.coarity) ∧
    (∀ args : List Value, args.length = o.arity →
      (∃ (r : Except Error Unit) (t : Store),
        (∀ rest : List Value, run o.execute { s with stack := args.reverse ++ rest } =
          (r, { t with stack := t.stack ++ rest })) ∧
        (r = .ok () → t.stack.length = o.coarity) ∧
        ∀ e, r = .error e → Same s t ∧ t.stack.reverse <+: args) ∧
      ∀ extra : List Value, (o.invoke (extra ++ args) s).2 = (o.invoke args s).2 ∧
        (∀ d, (o.invoke (extra ++ args) s).1 = .error d ↔ (o.invoke args s).1 = .error d) ∧
        ∀ vs, (o.invoke (extra ++ args) s).1 = .ok (extra ++ vs) ↔
          (o.invoke args s).1 = .ok vs) ∧
    ∀ args : List Value, args.length < o.arity →
      (∃ e t, run o.execute { s with stack := args.reverse } = (.error e, t) ∧ Same s t) ∧
      ∃ d, o.invoke args s = (.error d, { s with stack := [] }) := by
  refine ⟨fun m ps rs => HasType.lengths, fun args h => ⟨?_, fun extra => ?_⟩, fun args h => ?_⟩
  · have hpost := o.post_execute_frame { s with stack := args.reverse }
    have henough : o.arity ≤ args.reverse.length := by simp [h]
    rcases hr : run o.execute { s with stack := args.reverse } with ⟨r, t⟩
    refine ⟨r, t, run_execute_append henough hr, ?_, ?_⟩
    · rintro rfl
      obtain ⟨rs, hrs, hstack⟩ := (hpost.of_ok hr).results
      have hdrop : args.reverse.drop o.arity = [] := by simp [h]
      rw [hstack, hdrop, List.append_nil, hrs]
    · rintro e rfl
      obtain ⟨k, -, -, rfl⟩ := hpost.of_error hr
      refine ⟨⟨rfl, rfl⟩, ?_⟩
      rw [List.drop_reverse, List.reverse_reverse]
      exact List.take_prefix _ _
  · rw [invoke_append h]
    refine ⟨rfl, fun d => ?_, fun vs => ?_⟩
    · cases (o.invoke args s).1 <;> simp [Except.map]
    · cases (o.invoke args s).1 <;> simp [Except.map]
  · exact ⟨exists_error_of_lt h s, invoke_of_lt h s⟩

/-- Growing the table hands back an argument that it does not take, and fails without the first one
that it does. -/
theorem stack_discipline_grow :
    ((grow 0).invoke ([.i64 7] ++ [.funcref none, .i32 1]) mixed).1 = .ok ([.i64 7] ++ [.i32 2]) ∧
      ∃ d, (grow 0).invoke [.i32 1] mixed = (.error d, { mixed with stack := [] }) := by
  obtain ⟨-, henough, htooFew⟩ := stack_discipline (grow 0) mixed
  have hgrown : ((grow 0).invoke [.funcref none, .i32 1] mixed).1 = .ok [.i32 2] := rfl
  exact ⟨(((henough _ rfl).2 [.i64 7]).2.2 _).2 hgrown, (htooFew [.i32 1] (by decide)).2⟩

end TableOp

end WasmCheck
