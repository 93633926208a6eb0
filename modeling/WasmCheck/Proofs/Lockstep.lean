import WasmCheck.Proofs.Outcome

/-!
# Attempts in lockstep

Two attempts are tried side by side, each on a state of its own. They are in lockstep if both
succeed, with related answers and states, or both fail with the same error. Some errors may be
excused: they may stop the second attempt alone. With every error excused, whatever the second
attempt succeeds in the first one does too.
-/

namespace WasmCheck.Attempt

variable {σ τ α β α' β' : Type}

/-- Two successes with answers and states in `Q`, or two failures with one error and states in `E`;
or the second outcome is an error in `X`. -/
inductive Agree (X : Error → Prop) (Q : α → β → σ → τ → Prop) (E : σ → τ → Prop) :
    Except Error α × σ → Except Error β × τ → Prop where
  | ok {a : α} {b : β} {s : σ} {t : τ} : Q a b s t → Agree X Q E (.ok a, s) (.ok b, t)
  | error {e : Error} {s : σ} {t : τ} : E s t → Agree X Q E (.error e, s) (.error e, t)
  | excused {r : Except Error α × σ} {e : Error} {t : τ} : X e → Agree X Q E r (.error e, t)

def Lockstep (X : Error → Prop) (x : Attempt σ α) (y : Attempt τ β) (s : σ) (t : τ)
    (Q : α → β → σ → τ → Prop) (E : σ → τ → Prop) : Prop :=
  Agree X Q E (run x s) (run y t)

namespace Lockstep

variable {X : Error → Prop} {x : Attempt σ α} {y : Attempt τ β} {s s₁ s₂ : σ} {t t₁ t₂ : τ}
  {Q : α → β → σ → τ → Prop} {E : σ → τ → Prop}

theorem mono {Q' : α → β → σ → τ → Prop} (h : Lockstep X x y s t Q E)
    (hq : ∀ a b s' t', Q a b s' t' → Q' a b s' t') : Lockstep X x y s t Q' E := by
  unfold Lockstep at *
  generalize run x s = r at *
  generalize run y t = r' at *
  cases h with
  | ok h => exact .ok (hq _ _ _ _ h)
  | error h => exact .error h
  | excused h => exact .excused h

theorem weaken {X' : Error → Prop} {E' : σ → τ → Prop} (h : Lockstep X x y s t Q E)
    (hX : ∀ e, X e → X' e) (he : ∀ s' t', E s' t' → E' s' t') : Lockstep X' x y s t Q E' := by
  unfold Lockstep at *
  generalize run x s = r at *
  generalize run y t = r' at *
  cases h with
  | ok h => exact .ok h
  | error h => exact .error (he _ _ h)
  | excused h => exact .excused (hX _ h)

theorem refl (x : Attempt σ α) (s : σ) :
    Lockstep X x x s s (fun a b s' t' => a = b ∧ s' = t') fun s' t' => s' = t' := by
  unfold Lockstep
  rcases run x s with ⟨_ | _, _⟩
  · exact .error rfl
  · exact .ok ⟨rfl, rfl⟩

theorem pure {a : α} {b : β} (h : Q a b s t) : Lockstep X (pure a) (pure b) s t Q E := .ok h

theorem modify {Q : PUnit → PUnit → σ → τ → Prop} {f : σ → σ} {g : τ → τ}
    (h : Q ⟨⟩ ⟨⟩ (f s) (g t)) : Lockstep X (modify f) (modify g) s t Q E := .ok h

theorem get {F : σ → Attempt σ α} {G : τ → Attempt τ β} (h : Lockstep X (F s) (G t) s t Q E) :
    Lockstep X ((MonadState.get : Attempt σ σ) >>= F) ((MonadState.get : Attempt τ τ) >>= G)
      s t Q E := h

theorem ofExcept {r : Except Error α} {Q : α → α → σ → τ → Prop} (hq : ∀ a, Q a a s t)
    (he : E s t) : Lockstep X (ofExcept r) (Attempt.ofExcept r) s t Q E := by
  cases r with
  | ok a => exact .ok (hq a)
  | error e => exact .error he

theorem bind {F : α → Attempt σ α'} {G : β → Attempt τ β'} {Q' : α' → β' → σ → τ → Prop}
    (h : Lockstep X x y s t Q E)
    (hf : ∀ a b s' t', Q a b s' t' → Lockstep X (F a) (G b) s' t' Q' E) :
    Lockstep X (x >>= F) (y >>= G) s t Q' E := by
  unfold Lockstep at *
  rw [run_bind, run_bind]
  generalize run x s = r at h
  generalize run y t = r' at h
  cases h with
  | ok h => exact hf _ _ _ _ h
  | error h => exact .error h
  | excused h => exact .excused h

theorem of_always {a : α} {b : β}
    (hx : ∀ {Q : α → σ → Prop} {E : Error → σ → Prop}, Post x s Q E ↔ Q a s₁)
    (hy : ∀ {Q : β → τ → Prop} {E : Error → τ → Prop}, Post y t Q E ↔ Q b t₁)
    (hq : Q a b s₁ t₁) : Lockstep X x y s t Q E := by
  unfold Lockstep
  rw [hx.1 (post_run x s), hy.1 (post_run y t)]
  exact .ok hq

/-- Attempts that succeed under one condition each and else fail. If the second one fails, its error
is excused, or the first one fails with the same error. -/
theorem of_post {c c' : Prop} [Decidable c] [Decidable c'] {a : α} {b : β} {e e' : Error}
    (hx : ∀ {Q : α → σ → Prop} {E : Error → σ → Prop},
      Post x s Q E ↔ if c then Q a s₁ else E e s₂)
    (hy : ∀ {Q : β → τ → Prop} {E : Error → τ → Prop},
      Post y t Q E ↔ if c' then Q b t₁ else E e' t₂)
    (hok : c' → c ∧ Q a b s₁ t₁) (herr : ¬c' → X e' ∨ ¬c ∧ e = e' ∧ E s₂ t₂) :
    Lockstep X x y s t Q E := by
  have hrx := post_run x s
  have hry := post_run y t
  rw [hx] at hrx
  rw [hy] at hry
  unfold Lockstep
  by_cases hc' : c'
  · obtain ⟨hc, hq⟩ := hok hc'
    rw [if_pos hc] at hrx
    rw [if_pos hc'] at hry
    rw [hrx, hry]
    exact .ok hq
  · rw [if_neg hc'] at hry
    rw [hry]
    rcases herr hc' with hX | ⟨hc, rfl, hE⟩
    · exact .excused hX
    · rw [if_neg hc] at hrx
      rw [hrx]
      exact .error hE

theorem guard {c c' : Prop} [Decidable c] [Decidable c'] {e e' : Error} {k : Unit → Attempt σ α}
    {k' : Unit → Attempt τ β} (hc : c → c') (hX : c' → X e' ∨ c ∧ e = e' ∧ E s t)
    (hk : Lockstep X (k ()) (k' ()) s t Q E) :
    Lockstep X (if c then Attempt.fail e >>= k else k ())
      (if c' then Attempt.fail e' >>= k' else k' ()) s t Q E := by
  by_cases h' : c'
  · rw [if_pos h']
    rcases hX h' with h | ⟨h, rfl, hE⟩
    · exact .excused h
    · rw [if_pos h]
      exact .error hE
  · rw [if_neg h', if_neg fun h => h' (hc h)]
    exact hk

/-- With every error excused, only the successes of the second attempt count. -/
theorem of_follows (h : Post y t (fun b t' => Post x s (fun a s' => Q a b s' t') fun _ _ => False)
    fun e _ => X e) : Lockstep X x y s t Q E := by
  unfold Lockstep
  rcases hy : run y t with ⟨e | b, t'⟩
  · exact .excused (h.of_error hy)
  · have h := h.of_ok hy
    rcases hx : run x s with ⟨e | a, s'⟩
    · exact (h.of_error hx).elim
    · exact .ok (h.of_ok hx)

theorem post {R : β → τ → Prop} (h : Lockstep X x y s t Q E)
    (hy : Post y t R fun _ _ => False) :
    Post x s (fun a s' => ∃ b t', Q a b s' t' ∧ R b t') fun _ _ => False := by
  unfold Lockstep at h
  unfold Post at *
  generalize run x s = r at *
  generalize run y t = r' at *
  cases h with
  | ok h => exact ⟨_, _, h, hy⟩
  | error => exact hy
  | excused => exact hy.elim

theorem eq {x : Attempt σ Unit} {y : Attempt τ Unit} {R : σ → τ → Prop}
    (h : Lockstep X x y s t (fun _ _ => R) R) (hX : ∀ e, ¬X e) :
    (run x s).1 = (run y t).1 ∧ R (run x s).2 (run y t).2 := by
  unfold Lockstep at h
  generalize run x s = r at *
  generalize run y t = r' at *
  cases h with
  | ok h => exact ⟨rfl, h⟩
  | error h => exact ⟨rfl, h⟩
  | excused h => exact absurd h (hX _)

end Lockstep

end WasmCheck.Attempt

namespace WasmCheck

variable {ε ε' α β α' β' : Type} {X : ε → Prop} {R : α → β → Prop} {x : Except ε α}
  {y : Except ε β}

/-- What lockstep is for outcomes without a state: two successes with values in `R`, or two failures
with one error; or the second outcome is an error in `X`. -/
inductive Coincide (X : ε → Prop) (R : α → β → Prop) : Except ε α → Except ε β → Prop where
  | ok {a : α} {b : β} : R a b → Coincide X R (.ok a) (.ok b)
  | error (e : ε) : Coincide X R (.error e) (.error e)
  | excused {x : Except ε α} {e : ε} : X e → Coincide X R x (.error e)

namespace Coincide

theorem refl (x : Except ε α) : Coincide X Eq x x := by
  cases x with
  | ok => exact .ok rfl
  | error => exact .error _

theorem mono {R' : α → β → Prop} (h : Coincide X R x y) (hr : ∀ a b, R a b → R' a b) :
    Coincide X R' x y := by
  cases h with
  | ok h => exact .ok (hr _ _ h)
  | error => exact .error _
  | excused h => exact .excused h

theorem and_eq (h : Coincide X R x y) : Coincide X (fun a b => R a b ∧ y = .ok b) x y := by
  cases h with
  | ok h => exact .ok ⟨h, rfl⟩
  | error e => exact .error e
  | excused h => exact .excused h

theorem bind {R' : α' → β' → Prop} {f : α → Except ε α'} {g : β → Except ε β'}
    (h : Coincide X R x y) (hf : ∀ a b, R a b → Coincide X R' (f a) (g b)) :
    Coincide X R' (x >>= f) (y >>= g) := by
  cases h with
  | ok h => exact hf _ _ h
  | error e => exact .error e
  | excused h => exact .excused h

theorem mapError {X' : ε' → Prop} (h : Coincide X R x y) (f : ε → ε') (hX : ∀ e, X e → X' (f e)) :
    Coincide X' R (x.mapError f) (y.mapError f) := by
  cases h with
  | ok h => exact .ok h
  | error e => exact .error _
  | excused h => exact .excused (hX _ h)

theorem eq_or_excused {x y : Except ε α} (h : Coincide X Eq x y) :
    x = y ∨ ∃ e, y = .error e ∧ X e := by
  cases h with
  | ok h => exact .inl (congrArg _ h)
  | error => exact .inl rfl
  | excused h => exact .inr ⟨_, rfl, h⟩

end Coincide

end WasmCheck
