import WasmCheck.Attempt

/-!
# What an attempt leaves behind

`x.Post s Q E` says that `x`, tried from the state `s`, ends in `Q` if it succeeds and in `E` if it
fails. The lemmas here compute it for the basic attempts; each is an equivalence, so that a rule is
opened by rewriting and its cases are read off.
-/

namespace WasmCheck

theorem Except.bind_eq_ok_iff {ε α β : Type} {x : Except ε α} {f : α → Except ε β} {b : β} :
    (x >>= f) = .ok b ↔ ∃ a, x = .ok a ∧ f a = .ok b := by
  cases x <;> simp [bind, Except.bind]

theorem Except.pure_eq_ok_iff {α : Type} {a b : α} : (pure a : Except Error α) = .ok b ↔ a = b :=
  Except.ok.injEq a b ▸ Iff.rfl

theorem Except.exists_eq_ok_iff {ε : Type} {x : Except ε Unit} : (∃ u, x = .ok u) ↔ x = .ok () :=
  ⟨fun ⟨(), h⟩ => h, fun h => ⟨(), h⟩⟩

theorem Except.seq_eq_ok_iff {ε : Type} {x y : Except ε Unit} :
    (x >>= fun _ => y) = .ok () ↔ x = .ok () ∧ y = .ok () := by
  cases x <;> simp [bind, Except.bind]

namespace Attempt

variable {σ α β : Type} {s : σ} {Q Q' : α → σ → Prop} {E E' : Error → σ → Prop}

/-- From `s` the attempt ends in `Q` with its answer, or in `E` with its error. -/
def Post (x : Attempt σ α) (s : σ) (Q : α → σ → Prop) (E : Error → σ → Prop) : Prop :=
  match run x s with
  | (.ok a, t) => Q a t
  | (.error e, t) => E e t

theorem Post.mono {x : Attempt σ α} (h : Post x s Q E) (hq : ∀ a t, Q a t → Q' a t)
    (he : ∀ e t, E e t → E' e t) : Post x s Q' E' := by
  unfold Post at *
  split at h
  · exact hq _ _ h
  · exact he _ _ h

theorem Post.of_ok {x : Attempt σ α} {a : α} {t : σ} (h : Post x s Q E)
    (hr : run x s = (.ok a, t)) : Q a t := by
  unfold Post at h
  rwa [hr] at h

theorem Post.of_error {x : Attempt σ α} {e : Error} {t : σ} (h : Post x s Q E)
    (hr : run x s = (.error e, t)) : E e t := by
  unfold Post at h
  rwa [hr] at h

theorem Post.of_fst_ok {x : Attempt σ α} {a : α} (h : Post x s Q E) (hr : (run x s).1 = .ok a) :
    Q a (run x s).2 :=
  h.of_ok (Prod.ext hr rfl)

theorem Post.of_fst_error {x : Attempt σ α} {e : Error} (h : Post x s Q E)
    (hr : (run x s).1 = .error e) : E e (run x s).2 :=
  h.of_error (Prod.ext hr rfl)

theorem Post.and {x : Attempt σ α} (h : Post x s Q E) (h' : Post x s Q' E') :
    Post x s (fun a t => Q a t ∧ Q' a t) (fun e t => E e t ∧ E' e t) := by
  unfold Post at *
  split at h <;> next hr =>
    rw [hr] at h'
    exact ⟨h, h'⟩

theorem post_run (x : Attempt σ α) (s : σ) :
    Post x s (fun a t => run x s = (.ok a, t)) (fun e t => run x s = (.error e, t)) := by
  unfold Post
  split
  · next h => exact h
  · next h => exact h

/-- What is said of the answer may be put in other words. -/
theorem Post.congr {x : Attempt σ α} (h : Post x s (fun a t => Q a t ↔ Q' a t) fun _ _ => True) :
    Post x s Q E ↔ Post x s Q' E := by
  unfold Post at *
  split at h
  · exact h
  · exact Iff.rfl

theorem run_eq_of_post {x y : Attempt σ α}
    (h : ∀ (Q : α → σ → Prop) (E : Error → σ → Prop), Post x s Q E ↔ Post y s Q E) :
    run x s = run y s := by
  have hy := (h _ _).2 (post_run y s)
  unfold Post at hy
  split at hy
  · next hx => rw [hx, hy]
  · next hx => rw [hx, hy]

theorem post_eq_iff {x : Attempt σ Unit} {t : σ} :
    Post x s (fun _ s' => s' = t) (fun _ _ => False) ↔ run x s = (.ok (), t) := by
  unfold Post
  rcases run x s with ⟨_ | _, s'⟩ <;> simp

/-- The attempt succeeds exactly if `A` holds, and then ends in the state `u`. -/
theorem run_eq_ok_iff_of_post {x : Attempt σ Unit} {A : Prop} {t u : σ}
    (h : Post x s (fun _ s' => A ∧ s' = u) (fun _ _ => ¬A)) :
    run x s = (.ok (), t) ↔ A ∧ t = u := by
  rcases hr : run x s with ⟨e | _, s'⟩
  · have hA := h.of_error hr
    simp [hA]
  · obtain ⟨hA, rfl⟩ := h.of_ok hr
    simp [hA, eq_comm]

/-! ## Basic attempts -/

@[simp] theorem post_pure {a : α} : Post (pure a) s Q E ↔ Q a s := Iff.rfl

@[simp] theorem post_fail {e : Error} : Post (fail e) s Q E ↔ E e s := Iff.rfl

@[simp] theorem post_get {Q : σ → σ → Prop} : Post (get : Attempt σ σ) s Q E ↔ Q s s := Iff.rfl

@[simp] theorem post_set {Q : PUnit → σ → Prop} {t : σ} :
    Post (set t : Attempt σ PUnit) s Q E ↔ Q ⟨⟩ t := Iff.rfl

@[simp] theorem post_modify {Q : PUnit → σ → Prop} {f : σ → σ} :
    Post (modify f : Attempt σ PUnit) s Q E ↔ Q ⟨⟩ (f s) := Iff.rfl

theorem post_ofExcept {x : Except Error α} :
    Post (ofExcept x) s Q E ↔ (∀ a, x = .ok a → Q a s) ∧ ∀ e, x = .error e → E e s := by
  cases x <;> simp [Post]

@[simp] theorem post_bind {x : Attempt σ α} {f : α → Attempt σ β} {Q : β → σ → Prop} :
    Post (x >>= f) s Q E ↔ Post x s (fun a t => Post (f a) t Q E) E := by
  unfold Post
  rw [run_bind]
  rcases run x s with ⟨_ | _, t⟩ <;> rfl

@[simp] theorem post_map {x : Attempt σ α} {f : α → β} {Q : β → σ → Prop} :
    Post (f <$> x) s Q E ↔ Post x s (fun a t => Q (f a) t) E := by
  rw [map_eq_pure_bind, post_bind]
  rfl

@[simp] theorem post_guard {c : Prop} [Decidable c] {e : Error} {k : Unit → Attempt σ α} :
    Post (if c then fail e >>= k else k ()) s Q E ↔ if c then E e s else Post (k ()) s Q E := by
  split <;> simp

end Attempt

end WasmCheck
