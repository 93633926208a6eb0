import WasmCheck.Proofs.Table.Footprint

/-!
# Independent instructions

Two instructions are independent if neither writes what the other one names. Then it does not matter
which of them is invoked first: each has the same answer either way, and the stores that they leave
are the same. This rests on two facts about a single invocation: it leaves every place but its
target alone, and its answer and what it leaves at the places it names are a matter of what was
there and of its arguments.
-/

namespace WasmCheck

open Attempt Store

namespace TableOp

/-- Neither instruction writes what the other one names. -/
def Independent (o p : TableOp) : Prop :=
  (∀ e ∈ o.target, e ∉ p.names) ∧ ∀ e ∈ p.target, e ∉ o.names

instance (o p : TableOp) : Decidable (o.Independent p) :=
  inferInstanceAs (Decidable ((∀ e ∈ o.target, e ∉ p.names) ∧ ∀ e ∈ p.target, e ∉ o.names))

theorem Independent.symm {o p : TableOp} (h : o.Independent p) : p.Independent o := ⟨h.2, h.1⟩

variable {o p : TableOp} {s s' : Store} {e : Place}

/-! ## One invocation -/

theorem stack_invoke (o : TableOp) (args : List Value) (s : Store) :
    (o.invoke args s).2.stack = [] := by
  unfold invoke
  split <;> rfl

theorem entry_invoke_of_ne (h : o.target ≠ some e) (args : List Value) (s : Store) :
    (o.invoke args s).2.entry e = s.entry e := by
  have hpost := o.post_execute_frame { s with stack := args.reverse }
  rcases hr : run o.execute { s with stack := args.reverse } with ⟨r | _, t⟩
  · obtain ⟨k, -, -, rfl⟩ := hpost.of_error hr
    rw [invoke_of_error hr]
    simp
  · rw [invoke_of_ok hr, entry_withStack, (hpost.of_ok hr).entries e h, entry_withStack]

/-- An invocation reads nothing but its arguments and the places it names. -/
theorem invoke_congr (h : ∀ e ∈ o.names, s'.entry e = s.entry e) (args : List Value) :
    (o.invoke args s').1 = (o.invoke args s).1 ∧
      ∀ e ∈ o.names, (o.invoke args s').2.entry e = (o.invoke args s).2.entry e := by
  have hakin : Akin (· ∈ o.names) [] o.arity { s with stack := args.reverse }
      { s' with stack := args.reverse } := by
    refine ⟨fun e he => ?_, (List.append_nil _).symm, .inr rfl⟩
    simpa using h e he
  obtain ⟨hout, hakin'⟩ := (o.lockstep_execute hakin fun _ => id).eq fun _ => id
  rcases hr : run o.execute { s with stack := args.reverse } with ⟨r, t⟩
  rcases hr' : run o.execute { s' with stack := args.reverse } with ⟨r', t'⟩
  rw [hr, hr'] at hout hakin'
  obtain rfl : r = r' := hout
  have hentries : ∀ e ∈ o.names, t'.entry e = t.entry e := hakin'.entries
  have hstack : t'.stack = t.stack := hakin'.stack.trans (List.append_nil _)
  cases r with
  | error => rw [invoke_of_error hr, invoke_of_error hr']; simpa using hentries
  | ok => rw [invoke_of_ok hr, invoke_of_ok hr']; simpa [hstack] using hentries

/-! ## Two invocations -/

theorem Independent.entry_invoke (h : o.Independent p) (args : List Value) (s : Store) :
    ∀ e ∈ p.names, (o.invoke args s).2.entry e = s.entry e :=
  fun e he => entry_invoke_of_ne (fun ht => h.1 e ht he) args s

theorem Independent.invoke_comm (h : o.Independent p) (args args' : List Value) (s : Store) :
    (p.invoke args' (o.invoke args s).2).2 = (o.invoke args (p.invoke args' s).2).2 := by
  have ho := (invoke_congr (h.symm.entry_invoke args' s) args).2
  have hp := (invoke_congr (h.entry_invoke args s) args').2
  refine ext_entry (fun e => ?_) (by rw [stack_invoke, stack_invoke])
  by_cases heo : o.target = some e
  · have hep : p.target ≠ some e := fun ht => h.1 e heo (mem_names_of_target ht)
    rw [entry_invoke_of_ne hep, ho e (mem_names_of_target heo)]
  · rw [entry_invoke_of_ne heo]
    by_cases hep : p.target = some e
    · exact hp e (mem_names_of_target hep)
    · rw [entry_invoke_of_ne hep, entry_invoke_of_ne hep, entry_invoke_of_ne heo]

/-- Independent invocations have the same answers in either order, and lead to the same store. In
general an invocation changes no place but its target, and its answer and what it leaves at the
places it names depend only on what was there and on its arguments. -/
theorem independent_invocations (o p : TableOp) (args args' : List Value) (s : Store) :
    (o.Independent p →
      (p.invoke args' (o.invoke args s).2).1 = (p.invoke args' s).1 ∧
      (o.invoke args (p.invoke args' s).2).1 = (o.invoke args s).1 ∧
      (p.invoke args' (o.invoke args s).2).2 = (o.invoke args (p.invoke args' s).2).2) ∧
    (∀ e, o.target ≠ some e → (o.invoke args s).2.entry e = s.entry e) ∧
    ∀ s' : Store, (∀ e ∈ o.names, s'.entry e = s.entry e) →
      (o.invoke args s').1 = (o.invoke args s).1 ∧
      ∀ e ∈ o.names, (o.invoke args s').2.entry e = (o.invoke args s).2.entry e := by
  refine ⟨fun h => ⟨?_, ?_, h.invoke_comm args args' s⟩, ?_, fun s' h => invoke_congr h args⟩
  · exact (invoke_congr (h.entry_invoke args s) args').1
  · exact (invoke_congr (h.symm.entry_invoke args' s) args).1
  · exact fun e he => entry_invoke_of_ne he args s

/-- Two tables, the second of which is too small for its segment. -/
def twoTables : Store :=
  ⟨[⟨⟨.funcref, ⟨1, none⟩⟩, #[.funcref none]⟩, ⟨⟨.funcref, ⟨1, none⟩⟩, #[.funcref none]⟩],
    [[.funcref (some 4), .funcref (some 5)]], []⟩

/-- A table is written while the initialisation of another one traps, before or after. -/
theorem independent_invocations_trap :
    (set 0).Independent (init 1 0) ∧
      ((init 1 0).invoke [.i32 0, .i32 0, .i32 2]
        ((set 0).invoke [.i32 0, .funcref (some 9)] twoTables).2).1 =
          .error (.unlocated (.tableRange "table.init")) ∧
      ((set 0).invoke [.i32 0, .funcref (some 9)]
        ((init 1 0).invoke [.i32 0, .i32 0, .i32 2] twoTables).2).1 = .ok [] := by
  have h : (set 0).Independent (init 1 0) := by decide
  obtain ⟨hinit, hset, -⟩ := (independent_invocations (set 0) (init 1 0)
    [.i32 0, .funcref (some 9)] [.i32 0, .i32 0, .i32 2] twoTables).1 h
  exact ⟨h, hinit.trans rfl, hset.trans rfl⟩

end TableOp

end WasmCheck
