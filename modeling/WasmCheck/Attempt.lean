import WasmCheck.Error

/-!
# Attempts

A computation on a state that may fail. What it did to the state before it failed stays done, so
that the state after a failure is as definite as the one after a success.
-/

namespace WasmCheck

/-- A computation on a state of type `σ` that gives an `α` or an error, and a state either way. -/
abbrev Attempt (σ : Type) := ExceptT Error (StateM σ)

namespace Attempt

variable {σ α β : Type}

def run (x : Attempt σ α) (s : σ) : Except Error α × σ := x s

def ofExcept (x : Except Error α) : Attempt σ α := fun s => (x, s)

def fail (e : Error) : Attempt σ α := fun s => (.error e, s)

/-- The state after an attempt that succeeds. -/
def final (x : Attempt σ α) (s : σ) : Except Error σ :=
  match run x s with
  | (.ok _, t) => .ok t
  | (.error e, _) => .error e

theorem ext {x y : Attempt σ α} (h : ∀ s, run x s = run y s) : x = y := funext h

@[simp] theorem run_pure (a : α) (s : σ) : run (pure a) s = (.ok a, s) := rfl

@[simp] theorem run_fail (e : Error) (s : σ) : run (fail e : Attempt σ α) s = (.error e, s) := rfl

@[simp] theorem run_ofExcept (x : Except Error α) (s : σ) : run (ofExcept x) s = (x, s) := rfl

theorem run_get_bind (f : σ → Attempt σ β) (s : σ) : run (get >>= f) s = run (f s) s := rfl

theorem run_bind (x : Attempt σ α) (f : α → Attempt σ β) (s : σ) :
    run (x >>= f) s = match run x s with
      | (.ok a, s') => run (f a) s'
      | (.error e, s') => (.error e, s') := by
  show (ExceptT.bindCont f (x s).1) (x s).2 = _
  unfold run
  rcases x s with ⟨_ | _, _⟩ <;> rfl

@[simp] theorem run_bind_of_ok {x : Attempt σ α} {f : α → Attempt σ β} {s s' : σ} {a : α}
    (h : run x s = (.ok a, s')) : run (x >>= f) s = run (f a) s' := by
  rw [run_bind, h]

@[simp] theorem run_bind_of_error {x : Attempt σ α} {f : α → Attempt σ β} {s s' : σ} {e : Error}
    (h : run x s = (.error e, s')) : run (x >>= f) s = (.error e, s') := by
  rw [run_bind, h]

/-! ## Final states -/

@[simp] theorem final_get_bind (f : σ → Attempt σ β) (s : σ) :
    final (get >>= f) s = final (f s) s := rfl

@[simp] theorem final_ofExcept_bind (x : Except Error α) (f : α → Attempt σ β) (s : σ) :
    final (ofExcept x >>= f) s = x >>= fun a => final (f a) s := by
  cases x <;> rfl

end Attempt

end WasmCheck
