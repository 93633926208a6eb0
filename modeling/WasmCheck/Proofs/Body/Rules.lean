import WasmCheck.Body.Rules
import WasmCheck.Proofs.Stack.Innermost

/-!
# Rules seen from the innermost frame

What the rules that are put together from several operations do, in the terms of
`WasmCheck.Proofs.Stack.Innermost`.
-/

namespace WasmCheck

open Stack Attempt

variable {c : Context} {f : Frame} {fs : List Frame} {xs below : List Operand} {mo mf : Nat}
  {Q : Unit → Stack → Prop} {E : Error → Stack → Prop}

theorem post_apply (h : f.height = below.length) {ps rs : List ValueType} {d : String} :
    Post (popAll ps d >>= fun _ => pushAll rs) ⟨xs ++ below, f :: fs, mo, mf⟩ Q E ↔
      if fits f.unreachable xs ps.reverse then
        if mo < (xs.drop ps.length ++ below).length + rs.length then
          E (.operandOverflow mo) ⟨xs.drop ps.length ++ below, f :: fs, mo, mf⟩
        else Q () ⟨(rs.reverse.map .known ++ xs.drop ps.length) ++ below, f :: fs, mo, mf⟩
      else E (mismatch ⟨xs ++ below, f :: fs, mo, mf⟩ ps d) ⟨xs ++ below, f :: fs, mo, mf⟩ := by
  simp only [post_bind, post_popAll h, post_pushAll, size, List.append_assoc]
  rfl

theorem post_jump (h : f.height = below.length) {ts : List ValueType} {d : String} :
    Post (popAll ts d >>= fun _ => markUnreachable) ⟨xs ++ below, f :: fs, mo, mf⟩ Q E ↔
      if fits f.unreachable xs ts.reverse then
        Q () ⟨below, { f with unreachable := true } :: fs, mo, mf⟩
      else E (mismatch ⟨xs ++ below, f :: fs, mo, mf⟩ ts d) ⟨xs ++ below, f :: fs, mo, mf⟩ := by
  simp only [post_bind, post_popAll h, post_markUnreachable h]

/-- The label exists, carries `n` operands, and the operands at hand are fit for it. -/
def LabelOk (f : Frame) (fs : List Frame) (xs : List Operand) (n : Nat) (l : UInt32) : Prop :=
  ∃ g, (f :: fs)[l.toNat]? = some g ∧ g.labelTypes.length = n ∧
    fits f.unreachable xs g.labelTypes.reverse = true

theorem post_checkLabels (h : f.height = below.length) {ts : List ValueType} {ls : List UInt32}
    (hq : (∀ l ∈ ls, LabelOk f fs xs ts.length l) → Q () ⟨xs ++ below, f :: fs, mo, mf⟩)
    (he : (∃ l ∈ ls, ¬LabelOk f fs xs ts.length l) → ∀ e : Error, e.category = .validation →
      E e ⟨xs ++ below, f :: fs, mo, mf⟩) :
    Post (Op.checkLabels ts ls) ⟨xs ++ below, f :: fs, mo, mf⟩ Q E := by
  induction ls with
  | nil => exact hq (by simp)
  | cons l ls ih =>
    have refuse (hl : ¬LabelOk f fs xs ts.length l) (e : Error) (hc : e.category = .validation) :
        E e ⟨xs ++ below, f :: fs, mo, mf⟩ := he ⟨l, List.mem_cons_self, hl⟩ e hc
    simp only [Op.checkLabels, post_bind, post_labelTypes]
    split
    · next g hg =>
      rw [post_guard]
      split
      · next hn =>
        refine refuse ?_ _ rfl
        rintro ⟨g', hg', hn', -⟩
        rw [hg] at hg'
        cases hg'
        exact hn hn'
      · next hn =>
        rw [post_bind, post_peekAll h]
        split
        · next hf =>
          have hl : LabelOk f fs xs ts.length l := ⟨g, hg, Decidable.not_not.1 hn, hf⟩
          refine ih (fun hls => hq ?_) ?_
          · intro l' hl'
            rcases List.mem_cons.1 hl' with rfl | hl'
            · exact hl
            · exact hls l' hl'
          · rintro ⟨l', hl', hn'⟩
            exact he ⟨l', List.mem_cons_of_mem _ hl', hn'⟩
        · next hf =>
          refine refuse ?_ _ rfl
          rintro ⟨g', hg', -, hf'⟩
          rw [hg] at hg'
          cases hg'
          exact hf hf'
    · next hg =>
      refine refuse ?_ _ rfl
      rintro ⟨g', hg', -⟩
      rw [hg] at hg'
      cases hg'

/-- What a selection between the top two of the operands `ys` leaves: an operand of the one known
number type, or an unknown operand if no type is known. -/
inductive Selects (u : Bool) (ys : List Operand) : Operand → Prop where
  | known {t : ValueType} : Operand.known t ∈ ys.take 2 → t.isNum = true →
      fits u ys [t, t] = true → Selects u ys (.known t)
  | unknown : (∀ o ∈ ys.take 2, o = .unknown) → (u = true ∨ 2 ≤ ys.length) → Selects u ys .unknown

theorem eq_of_fits_pair {u : Bool} {ys : List Operand} {s t : ValueType}
    (hf : fits u ys [t, t] = true) (hm : Operand.known s ∈ ys.take 2) : s = t := by
  rcases ys with _ | ⟨y, _ | ⟨z, ys⟩⟩
  · simp at hm
  · simp only [fits, Bool.and_eq_true] at hf
    simp only [List.take_succ_cons, List.take_nil, List.mem_singleton] at hm
    subst hm
    exact Operand.known_fits.1 hf.1
  · simp only [fits, Bool.and_eq_true] at hf
    simp only [List.take_succ_cons, List.take_zero, List.mem_cons, List.not_mem_nil, or_false] at hm
    rcases hm with rfl | rfl
    · exact Operand.known_fits.1 hf.1
    · exact Operand.known_fits.1 hf.2.1

theorem firstKnown_cases (ys : List Operand) :
    (∃ t, (ys[0]?.bind (·.type?) <|> ys[1]?.bind (·.type?)) = some t ∧
      Operand.known t ∈ ys.take 2) ∨
    (ys[0]?.bind (·.type?) <|> ys[1]?.bind (·.type?)) = none ∧ ∀ o ∈ ys.take 2, o = .unknown := by
  rcases ys with _ | ⟨_ | _, _ | ⟨_ | _, ys⟩⟩ <;> simp [Operand.type?]

theorem post_checkSelect (h : f.height = below.length)
    (hok : fits f.unreachable xs [.i32] = true → ∀ o, Selects f.unreachable (xs.drop 1) o →
      ¬mo < ((xs.drop 1).drop 2 ++ below).length + 1 →
      Q () ⟨(o :: (xs.drop 1).drop 2) ++ below, f :: fs, mo, mf⟩)
    (hfull : fits f.unreachable xs [.i32] = true → ∀ o, Selects f.unreachable (xs.drop 1) o →
      mo < ((xs.drop 1).drop 2 ++ below).length + 1 →
      E (.operandOverflow mo) ⟨(xs.drop 1).drop 2 ++ below, f :: fs, mo, mf⟩)
    (hno : ¬(fits f.unreachable xs [.i32] = true ∧ ∃ o, Selects f.unreachable (xs.drop 1) o) →
      ∀ (e : Error) (k : Nat), e.category = .validation →
        E e ⟨xs.drop k ++ below, f :: fs, mo, mf⟩) :
    Post Op.checkSelect ⟨xs ++ below, f :: fs, mo, mf⟩ Q E := by
  simp only [Op.checkSelect, post_bind, post_pop h, post_get, operand?_framed h]
  split
  · next hi =>
    have hpush (o : Operand) (ho : Selects f.unreachable (xs.drop 1) o) :
        Post (pushOperand o) ⟨(xs.drop 1).drop 2 ++ below, f :: fs, mo, mf⟩ Q E := by
      rw [post_pushOperand]
      split
      · next hmo => exact hfull hi o ho hmo
      · next hmo => exact hok hi o ho hmo
    rcases firstKnown_cases (xs.drop 1) with ⟨t, hk, hm⟩ | ⟨hk, hu⟩
    · have only (o : Operand) (ho : Selects f.unreachable (xs.drop 1) o) :
          t.isNum = true ∧ fits f.unreachable (xs.drop 1) [t, t] = true := by
        cases ho with
        | known _ hn hf => rw [eq_of_fits_pair hf hm]; exact ⟨hn, hf⟩
        | unknown hu => cases hu _ hm
      rw [hk]
      simp only [post_guard]
      split
      · next hr =>
        refine hno ?_ _ 1 rfl
        rintro ⟨-, o, ho⟩
        have hn := (only o ho).1
        rw [ValueType.isNum, hr] at hn
        cases hn
      · next hr =>
        rw [post_bind, post_popAll h]
        split
        · next hf => exact hpush _ (.known hm (by simpa [ValueType.isNum] using hr) hf)
        · next hf =>
          refine hno ?_ _ 1 rfl
          rintro ⟨-, o, ho⟩
          exact hf (only o ho).2
    · have enough (o : Operand) (ho : Selects f.unreachable (xs.drop 1) o) :
          f.unreachable = true ∨ 2 ≤ (xs.drop 1).length := by
        cases ho with
        | known hm => cases hu _ hm
        | unknown _ hl => exact hl
      rw [hk]
      simp only [post_bind, post_popAny h]
      split
      · next h1 =>
        refine hno ?_ _ 1 rfl
        rintro ⟨-, o, ho⟩
        rcases enough o ho with hx | hl
        · rw [h1.2] at hx
          cases hx
        · rw [h1.1] at hl
          cases hl
      · split
        · next h2 =>
          rw [List.drop_drop]
          refine hno ?_ _ 2 rfl
          rintro ⟨-, o, ho⟩
          rcases enough o ho with hx | hl
          · rw [h2.2] at hx
            cases hx
          · have := List.drop_eq_nil_iff.1 h2.1
            omega
        · next h1 h2 =>
          rw [List.drop_drop]
          refine hpush _ (.unknown hu ?_)
          cases hx : f.unreachable with
          | true => exact .inl rfl
          | false =>
            rw [hx] at h2
            have : ¬(xs.drop 1).length ≤ 1 := fun hl => h2 ⟨List.drop_eq_nil_iff.2 hl, rfl⟩
            exact .inr (by omega)
  · next hi => exact hno (fun hn => hi hn.1) _ 0 rfl

/-! ## Markers -/

theorem post_enter (h : f.height = below.length) {kind : FrameKind} {t : FuncType} :
    Post (Instr.enter kind t) ⟨xs ++ below, f :: fs, mo, mf⟩ Q E ↔
      if fits f.unreachable xs t.params.reverse then
        if mf ≤ fs.length + 1 then
          E (.controlOverflow mf) ⟨xs.drop t.params.length ++ below, f :: fs, mo, mf⟩
        else if mo < (xs.drop t.params.length ++ below).length + t.params.length then
          E (.operandOverflow mo) ⟨xs.drop t.params.length ++ below, f :: fs, mo, mf⟩
        else Q () ⟨t.params.reverse.map .known ++ (xs.drop t.params.length ++ below),
          ⟨kind, t.params, t.results, (xs.drop t.params.length ++ below).length, false⟩ :: f :: fs,
          mo, mf⟩
      else E (mismatch ⟨xs ++ below, f :: fs, mo, mf⟩ t.params kind.name)
        ⟨xs ++ below, f :: fs, mo, mf⟩ := by
  simp only [Instr.enter, post_bind, post_popAll h, post_openFrame, depth, size, List.length_cons]
  rfl

theorem post_leave (h : f.height = below.length) {d : String} :
    Post (Instr.leave d) ⟨xs ++ below, f :: fs, mo, mf⟩ Q E ↔
      if closes f xs then
        if mo < below.length + f.results.length then
          E (.operandOverflow mo) ⟨below, fs, mo, mf⟩
        else Q () ⟨f.results.reverse.map .known ++ below, fs, mo, mf⟩
      else E (.typeMismatch d (f.results.map (·.name)) (xs.reverse.map (·.name)))
        ⟨xs ++ below, f :: fs, mo, mf⟩ := by
  simp only [Instr.leave, post_bind, post_closeFrame h, post_pushAll, size]
  rfl

theorem post_switch (h : f.height = below.length) :
    Post Instr.switch ⟨xs ++ below, f :: fs, mo, mf⟩ Q E ↔
      if closes f xs then
        if mf ≤ fs.length then E (.controlOverflow mf) ⟨below, fs, mo, mf⟩
        else if mo < below.length + f.params.length then
          E (.operandOverflow mo) ⟨below, fs, mo, mf⟩
        else Q () ⟨f.params.reverse.map .known ++ below,
          ⟨.else_, f.params, f.results, below.length, false⟩ :: fs, mo, mf⟩
      else E (.typeMismatch "if true branch" (f.results.map (·.name)) (xs.reverse.map (·.name)))
        ⟨xs ++ below, f :: fs, mo, mf⟩ := by
  simp only [Instr.switch, post_bind, post_closeFrame h, post_openFrame, depth, size]
  rfl

theorem post_checkEnd :
    Post Instr.checkEnd ⟨xs, f :: fs, mo, mf⟩ Q E ↔
      match f.kind with
      | .function => Post (closeFrame "implicit return") ⟨xs, f :: fs, mo, mf⟩ (fun _ => Q ()) E
      | .block => Post (Instr.leave "block") ⟨xs, f :: fs, mo, mf⟩ Q E
      | .loop => Post (Instr.leave "loop") ⟨xs, f :: fs, mo, mf⟩ Q E
      | .else_ => Post (Instr.leave "if false branch") ⟨xs, f :: fs, mo, mf⟩ Q E
      | .if_ => Post (Instr.switch >>= fun _ => Instr.leave "if false branch")
          ⟨xs, f :: fs, mo, mf⟩ Q E := by
  simp only [Instr.checkEnd, post_bind, post_currentFrame]
  cases f.kind <;> simp

theorem post_checkElse :
    Post Instr.checkElse ⟨xs, f :: fs, mo, mf⟩ Q E ↔
      if f.kind = .if_ then Post Instr.switch ⟨xs, f :: fs, mo, mf⟩ Q E
      else E .elseWithoutIf ⟨xs, f :: fs, mo, mf⟩ := by
  simp only [Instr.checkElse, post_bind, post_currentFrame]
  by_cases hk : f.kind = .if_ <;> simp [hk]

theorem post_check {i : Instr} :
    Post (i.check c) ⟨xs, f :: fs, mo, mf⟩ Q E ↔ Post (i.rule c) ⟨xs, f :: fs, mo, mf⟩ Q E := by
  simp only [Instr.check, post_bind, post_currentFrame]

theorem post_check_nil {i : Instr} :
    Post (i.check c) ⟨xs, [], mo, mf⟩ Q E ↔ E .afterEnd ⟨xs, [], mo, mf⟩ := by
  simp only [Instr.check, post_bind, post_currentFrame]

/-- The look-ups come first: an operation is accepted only if they find a type, and it is told that
an entry is missing only if they miss it. This holds of any stack. -/
theorem FixedOp.post_lookup {o : FixedOp} {s : Stack} :
    Post (Instr.check c (.op (.fixed o))) s (fun _ _ => ∃ t, o.type c = .ok t)
      (fun e _ => o.type c = .error e ∨ ∀ space i n, e ≠ .indexOutOfRange space i n) := by
  obtain ⟨xs, _ | ⟨f, fs⟩, mo, mf⟩ := s
  · exact post_check_nil.2 (.inr (by simp [Error.afterEnd]))
  · rw [post_check, Instr.rule, Op.check, FixedOp.check, post_bind, post_ofExcept]
    refine ⟨fun t ht => ?_, fun e he => .inl he⟩
    rw [post_bind, popAll, post_bind, post_peekAll_window]
    split
    · refine post_modify.2 (post_pushAll.2 ?_)
      split
      · exact .inr (by simp [Error.operandOverflow])
      · exact ⟨t, ht⟩
    · exact .inr (by simp [mismatch])

end WasmCheck
