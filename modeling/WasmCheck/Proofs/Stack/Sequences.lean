import WasmCheck.Proofs.Stack.Innermost

/-!
# Popping a sequence

A sequence of types is held against the operands at once, and then they are popped at once. Popped
one at a time, each operand is held against its type when those above it are gone. It comes to the
same: an operand that is missing is missing either way, and the height of the frame stays where it
is. Nothing here asks how the stack has come about.
-/

namespace WasmCheck.Stack

open Operand (known unknown)
open Attempt

def popEach (desc : String) : List ValueType → Check Unit
  | [] => pure ()
  | t :: ts => do
    popEach desc ts
    let _ ← pop t desc

def own (s : Stack) : List Operand := s.operands.take s.available

def without (s : Stack) (n : Nat) : Stack :=
  { s with operands := s.operands.drop (min n s.available) }

section Own
variable {s : Stack}

theorem window_eq_take_own (n : Nat) : s.window n = s.own.take n := s.window_eq_take n

theorem available_without (n : Nat) : (s.without n).available = s.available - n := by
  simp only [available, size, without, List.length_drop]
  show s.operands.length - min n (s.operands.length - s.floor) - s.floor = _
  omega

theorem own_without (n : Nat) : (s.without n).own = s.own.drop n := by
  rw [own, available_without, own, List.drop_take]
  rcases Nat.le_total n s.available with hn | hn
  · rw [without, Nat.min_eq_left hn]
  · rw [Nat.sub_eq_zero_of_le hn, List.take_zero, List.take_zero]

theorem without_without (n k : Nat) : (s.without n).without k = s.without (n + k) := by
  have hd : min n s.available + min k (s.without n).available = min (n + k) s.available := by
    rw [available_without]
    omega
  rw [without, without, without, List.drop_drop]
  exact congrArg (fun i => { s with operands := s.operands.drop i }) hd

end Own

theorem fits_append (b : Bool) (os : List Operand) (ts us : List ValueType) :
    fits b os (ts ++ us) = (fits b os ts && fits b (os.drop ts.length) us) := by
  induction ts generalizing os with
  | nil => cases os <;> rfl
  | cons t ts ih =>
    cases os with
    | nil => cases b <;> simp [fits, fits_nil_left]
    | cons o os => simp only [List.cons_append, fits, ih, List.length_cons, List.drop_succ_cons,
        Bool.and_assoc]

section Operations
variable {s : Stack} {ts : List ValueType} {d : String} {E : Error → Stack → Prop}

theorem fits_window : fits s.unreachable (s.window ts.length) ts.reverse =
    fits s.unreachable s.own ts.reverse := by
  rw [window_eq_take_own]
  exact fits_take _ _ _ (Nat.le_of_eq ts.length_reverse)

theorem post_popAll_own {Q : Unit → Stack → Prop} :
    Post (popAll ts d) s Q E ↔
      if fits s.unreachable s.own ts.reverse then Q () (s.without ts.length)
      else E (s.mismatch ts d) s := by
  rw [popAll, post_bind, post_peekAll_window, fits_window]
  rfl

theorem post_takeTop_own {Q : Operand → Stack → Prop} :
    Post takeTop s Q E ↔ Q (s.own.headD unknown) (s.without 1) := by
  unfold Post Attempt.run takeTop operand? own without
  have hle := s.available_le_size
  rcases Nat.eq_zero_or_pos s.available with h | h
  · simp [h]
  · rw [if_pos h]
    cases ho : s.operands with
    | nil => simp [size, ho] at hle; omega
    | cons o os =>
      obtain ⟨n, hn⟩ := Nat.exists_eq_succ_of_ne_zero (Nat.pos_iff_ne_zero.1 h)
      simp [hn]

theorem post_pop_own {t : ValueType} {Q : Operand → Stack → Prop} :
    Post (pop t d) s Q E ↔
      if fits s.unreachable s.own [t] then Q (s.own.headD unknown) (s.without 1)
      else E (s.mismatch [t] d) s := by
  rw [pop, post_bind, post_peekAll_window, fits_window, post_takeTop_own]
  rfl

theorem post_popEach (s : Stack) (ts : List ValueType) (d : String) :
    Post (popEach d ts) s
      (fun _ s' => fits s.unreachable s.own ts.reverse = true ∧ s' = s.without ts.length)
      (fun _ _ => fits s.unreachable s.own ts.reverse = false) := by
  induction ts with
  | nil => exact ⟨by cases s.own <;> rfl, by simp [without]⟩
  | cons t ts ih =>
    have hsplit : fits s.unreachable s.own (t :: ts).reverse =
        (fits s.unreachable s.own ts.reverse &&
          fits s.unreachable (s.without ts.length).own [t]) := by
      rw [List.reverse_cons, fits_append, List.length_reverse, own_without]
    rw [popEach, post_bind, hsplit]
    refine ih.mono ?_ fun _ _ h => by rw [h]; rfl
    rintro - s' ⟨hts, rfl⟩
    rw [post_bind, post_pop_own, hts, Bool.true_and]
    split
    · next ht => exact ⟨ht, without_without ..⟩
    · next ht => exact Bool.eq_false_iff.2 ht

/-- A mismatch shows the top operands of the innermost frame: one for each type, or at least one, as
far as there are any. -/
theorem message_mismatch (s : Stack) (ts : List ValueType) (d : String) :
    (s.mismatch ts d).message = "type mismatch in " ++ d ++ ", expected " ++
      typeList (ts.map (·.name)) ++ " but got " ++ typeList
        ((s.operands.take (min s.available (max 1 ts.length))).reverse.map (·.name)) := by
  rw [Nat.min_comm]
  rfl

end Operations

/-- A sequence of types can be popped at once if and only if it can be popped one at a time, and it
leaves the same stack. It can be peeked in the same stacks, with the same answer. A failure leaves
the stack alone and shows all the types, and of the operands only those of the innermost frame. -/
theorem popAll_iff_popEach (s : Stack) (ts : List ValueType) (desc : String) :
    (∀ s', run (popAll ts desc) s = (.ok (), s') ↔ run (popEach desc ts) s = (.ok (), s')) ∧
    run (peekAll ts desc) s = ((run (popAll ts desc) s).1, s) ∧
    ∀ e s', run (popAll ts desc) s = (.error e, s') → s' = s ∧
      ∃ shown, shown = s.operands.take (min s.available (max 1 ts.length)) ∧
        shown.length = min s.available (max 1 ts.length) ∧
        (∀ p < shown.length, s.floor ≤ s.size - 1 - p) ∧
        e.message = "type mismatch in " ++ desc ++ ", expected " ++ typeList (ts.map (·.name)) ++
          " but got " ++ typeList (shown.reverse.map (·.name)) := by
  have hall : Post (popAll ts desc) s
      (fun _ s' => fits s.unreachable s.own ts.reverse = true ∧ s' = s.without ts.length)
      (fun e s' => ¬fits s.unreachable s.own ts.reverse = true ∧
        e = s.mismatch ts desc ∧ s' = s) := by
    rw [post_popAll_own]
    split
    · next h => exact ⟨h, rfl⟩
    · next h => exact ⟨h, rfl, rfl⟩
  have heach := (s.post_popEach ts desc).mono (fun _ _ h => h)
    fun _ _ h => Bool.eq_false_iff.1 h
  refine ⟨fun s' => ?_, ?_, fun e s' hr => ?_⟩
  · rw [run_eq_ok_iff_of_post (hall.mono (fun _ _ h => h) fun _ _ h => h.1),
      run_eq_ok_iff_of_post heach]
  · have hpeek := post_run (peekAll ts desc) s
    rw [post_peekAll_window, fits_window] at hpeek
    rcases hr : run (popAll ts desc) s with ⟨e | _, s'⟩
    · obtain ⟨hf, rfl, -⟩ := hall.of_error hr
      rwa [if_neg hf] at hpeek
    · rwa [if_pos (hall.of_ok hr).1] at hpeek
  · obtain ⟨-, rfl, rfl⟩ := hall.of_error hr
    have hle := s'.available_le_size
    have hlen : (s'.operands.take (min s'.available (max 1 ts.length))).length =
        min s'.available (max 1 ts.length) := by
      rw [List.length_take]
      exact Nat.min_eq_left (Nat.le_trans (Nat.min_le_left ..) hle)
    refine ⟨rfl, _, rfl, hlen, fun p hp => ?_, message_mismatch ..⟩
    rw [hlen] at hp
    have hp := Nat.lt_of_lt_of_le hp (Nat.min_le_left ..)
    unfold available at hp
    omega

/-- The operand below the height of the block is not shown, though a third one is missing. -/
theorem popAll_iff_popEach_short :
    ∃ e, run (popAll [.i32, .i64, .f32] "call")
        ⟨[known .f32, unknown, known .i32], [⟨.block, [], [], 1, false⟩], 3, 1⟩ =
      (.error e, ⟨[known .f32, unknown, known .i32], [⟨.block, [], [], 1, false⟩], 3, 1⟩) ∧
      e.message = "type mismatch in call, expected [i32, i64, f32] but got [any, f32]" := by
  obtain ⟨-, -, h⟩ := popAll_iff_popEach
    ⟨[known .f32, unknown, known .i32], [⟨.block, [], [], 1, false⟩], 3, 1⟩
    [.i32, .i64, .f32] "call"
  obtain ⟨-, shown, rfl, -, -, hm⟩ := h _ _ rfl
  exact ⟨_, rfl, hm⟩

end WasmCheck.Stack
