import WasmCheck.Proofs.Body.Blame

/-!
# Elses left out

The `end` of an if without a second branch does what an `else` and an `end` in its place do: it goes
over to a second branch, which is empty, and closes that. So an `else` may be put before each such
`end`, in any body: the rules accept as much of it, leave the same states and fail for the same
reason. `withElses` puts them in as a run meets them, up to the instruction where it stops.
-/

namespace WasmCheck

open Stack Attempt

section Rules
variable {c : Context} {s : Stack}

def Stack.kind? (s : Stack) : Option FrameKind := s.frames.head?.map (·.kind)

theorem Stack.exists_frame {kind : FrameKind} (h : s.kind? = some kind) :
    ∃ xs f fs mo mf, s = ⟨xs, f :: fs, mo, mf⟩ ∧ f.kind = kind := by
  obtain ⟨xs, _ | ⟨f, fs⟩, mo, mf⟩ := s
  · cases h
  · exact ⟨xs, f, fs, mo, mf, rfl, Option.some.inj h⟩

theorem post_switch_kind :
    Post Instr.switch s (fun _ t => t.kind? = some .else_) (fun _ _ => True) := by
  rw [Instr.switch, post_bind]
  refine (post_run _ _).mono (fun f t _ => ?_) fun _ _ _ => trivial
  rw [post_openFrame]
  split
  · trivial
  split
  · trivial
  · rfl

/-- An `end` of an if is an `else`, and the `end` of what follows it. -/
theorem run_end_of_if (h : s.kind? = some .if_) :
    run (Instr.check c .end_) s = run (Instr.checkAll c [.else_, .end_]) s := by
  refine run_eq_of_post fun Q E => ?_
  obtain ⟨xs, f, fs, mo, mf, rfl, hk⟩ := exists_frame h
  simp only [Instr.checkAll, post_bind, post_check, Instr.rule, post_checkElse, post_checkEnd,
    hk, if_true, post_pure]
  refine Post.congr (post_switch_kind.mono (fun _ t ht => ?_) fun _ _ h => h)
  obtain ⟨ys, g, gs, mo, mf, rfl, hg⟩ := exists_frame ht
  rw [post_check, Instr.rule, post_checkEnd, hg]

theorem run_checkAll_append (is js : List Instr) :
    run (Instr.checkAll c (is ++ js)) s =
      run (Instr.checkAll c is >>= fun _ => Instr.checkAll c js) s :=
  run_eq_of_post fun _ _ => post_checkAll_append.trans post_bind.symm

theorem run_checkAll_singleton (i : Instr) : run (Instr.checkAll c [i]) s = run (i.check c) s :=
  run_eq_of_post fun _ _ => post_bind

end Rules

namespace BodyChecker

variable {k k' k₁ : BodyChecker} {is js : List Instr} {i : Instr} {ls ls' : List Located}

def EndsIf (k : BodyChecker) (i : Instr) : Prop := i = .end_ ∧ k.stack.kind? = some .if_

instance (k : BodyChecker) (i : Instr) : Decidable (k.EndsIf i) :=
  inferInstanceAs (Decidable (_ ∧ _))

def withElse (k : BodyChecker) (i : Instr) : List Instr := if k.EndsIf i then [.else_, i] else [i]

/-- The instructions, with an `else` before each `end` of an if that has none. Behind an instruction
that fails nothing is put in. -/
def withElses (k : BodyChecker) : List Instr → List Instr
  | [] => []
  | i :: is => k.withElse i ++
    match k.check i with
    | (.ok (), k') => k'.withElses is
    | (.error _, _) => is

/-- The number of instructions before the one at position `n`, once the elses are in. -/
def shift (k : BodyChecker) (ls : List Located) (n : Nat) : Nat :=
  (k.withElses ((ls.take n).map (·.instr))).length

theorem run_withElse (k : BodyChecker) (i : Instr) :
    run (Instr.checkAll k.context (k.withElse i)) k.stack = run (i.check k.context) k.stack := by
  unfold withElse
  split
  · next h =>
    obtain ⟨rfl, hk⟩ := h
    exact (run_end_of_if hk).symm
  · exact run_checkAll_singleton i

/-- Elses make no difference to the rules, whether these accept all instructions or not. -/
theorem run_withElses (k : BodyChecker) (is : List Instr) :
    run (Instr.checkAll k.context (k.withElses is)) k.stack =
      run (Instr.checkAll k.context is) k.stack := by
  induction is generalizing k with
  | nil => rfl
  | cons i is ih =>
    rw [withElses, run_checkAll_append, run_bind, run_withElse, Instr.checkAll, run_bind, check]
    rcases run (i.check k.context) k.stack with ⟨_ | _, s⟩
    · rfl
    · exact ih { k with stack := s }

theorem withElses_append {s : Stack}
    (h : run (Instr.checkAll k.context is) k.stack = (.ok (), s)) (js : List Instr) :
    k.withElses (is ++ js) = k.withElses is ++ withElses { k with stack := s } js := by
  induction is generalizing k with
  | nil => cases h; rfl
  | cons i is ih =>
    rw [Instr.checkAll, run_bind] at h
    rw [List.cons_append, withElses, withElses, check]
    rcases hr : run (i.check k.context) k.stack with ⟨_ | _, s'⟩
    · rw [hr] at h
      cases h
    · rw [hr] at h
      rw [List.append_assoc]
      exact congrArg _ (ih (k := { k with stack := s' }) h)

/-! ## Runs -/

theorem steps_withElses_iff (hl : ls'.map (·.instr) = k.withElses (ls.map (·.instr))) :
    k.steps ls' = .ok k' ↔ k.steps ls = .ok k' := by
  rw [steps_eq_ok_iff, steps_eq_ok_iff, hl, run_withElses]

/-- Where a run has come to, the elses before are in, and those to come are put in from there. -/
theorem map_split_shift (hl : ls'.map (·.instr) = k.withElses (ls.map (·.instr))) {n : Nat}
    (h : k.steps (ls.take n) = .ok k₁) :
    (ls'.take (k.shift ls n)).map (·.instr) = k.withElses ((ls.take n).map (·.instr)) ∧
      (ls'.drop (k.shift ls n)).map (·.instr) = k₁.withElses ((ls.drop n).map (·.instr)) := by
  obtain ⟨hc, hrun⟩ := steps_eq_ok_iff.1 h
  have hk : { k with stack := k₁.stack } = k₁ := by
    obtain ⟨c, s⟩ := k₁
    cases hc
    rfl
  have hsplit := withElses_append hrun ((ls.drop n).map (·.instr))
  rw [← List.map_append, List.take_append_drop, ← hl, hk] at hsplit
  rw [List.map_take, List.map_drop, hsplit]
  exact ⟨List.take_left .., List.drop_left ..⟩

theorem steps_take_shift (hl : ls'.map (·.instr) = k.withElses (ls.map (·.instr))) {n : Nat}
    (h : k.steps (ls.take n) = .ok k₁) : k.steps (ls'.take (k.shift ls n)) = .ok k₁ :=
  (steps_withElses_iff (map_split_shift hl h).1).2 h

/-- Where a fault of the code `ls` is found again in the code `ls'`, which has the elses. -/
inductive Corresponds (k : BodyChecker) (ls ls' : List Located) : Fault → Fault → Prop where
  | instruction {n : Nat} {l l' : Located} : ls[n]? = some l → ls'[k.shift ls n]? = some l' →
      l'.instr = l.instr → Corresponds k ls ls' (.instruction n) (.instruction (k.shift ls n))
  /-- The `end` of an if fails, and now the `else` before it. -/
  | else_ {n : Nat} {k₁ : BodyChecker} {l l' : Located} : k.steps (ls.take n) = .ok k₁ →
      ls[n]? = some l → k₁.EndsIf l.instr → ls'[k.shift ls n]? = some l' → l'.instr = .else_ →
      Corresponds k ls ls' (.instruction n) (.instruction (k.shift ls n))
  /-- The `end` of an if fails, and still does when an `else` comes before it. -/
  | end_ {n : Nat} {k₁ : BodyChecker} {l l' : Located} : k.steps (ls.take n) = .ok k₁ →
      ls[n]? = some l → k₁.EndsIf l.instr → ls'[k.shift ls n + 1]? = some l' → l'.instr = .end_ →
      Corresponds k ls ls' (.instruction n) (.instruction (k.shift ls n + 1))
  | unclosed : Corresponds k ls ls' .unclosed .unclosed

theorem getElem?_of_drop_eq_cons {α : Type} {xs ys : List α} {n : Nat} {a : α}
    (h : xs.drop n = a :: ys) : xs[n]? = some a := by
  rw [← List.head?_drop, h]
  rfl

theorem StopsAt.withElses {n : Nat} {l : Located} {e : Error} (h : k.StopsAt ls n k₁ l e)
    (hl : ls'.map (·.instr) = k.withElses (ls.map (·.instr))) :
    ∃ p k₂ l', k.StopsAt ls' p k₂ l' e ∧
      k.Corresponds ls ls' (.instruction n) (.instruction p) := by
  have hbefore := steps_take_shift hl h.before
  have hrest := (map_split_shift hl h.before).2
  obtain ⟨hn, hget⟩ := List.getElem?_eq_some_iff.1 h.here
  rw [List.drop_eq_getElem_cons hn, hget, List.map_cons, BodyChecker.withElses, withElse] at hrest
  by_cases hi : k₁.EndsIf l.instr
  · rw [if_pos hi] at hrest
    obtain ⟨l₁, rest, hdrop, hl₁, hrest⟩ := List.map_eq_cons_iff.1 hrest
    obtain ⟨l₂, rest, rfl, hl₂, -⟩ := List.map_eq_cons_iff.1 hrest
    have hhere := getElem?_of_drop_eq_cons hdrop
    have hnext : ls'.drop (k.shift ls n + 1) = l₂ :: rest := by
      rw [← List.drop_drop, hdrop]
      rfl
    have hfails : (run (l.instr.check k₁.context) k₁.stack).1 = .error e := h.fails
    rw [hi.1, run_end_of_if hi.2, Instr.checkAll, run_bind] at hfails
    rcases hr : run (Instr.check k₁.context .else_) k₁.stack with ⟨e' | _, s⟩
    · rw [hr] at hfails
      refine ⟨_, k₁, l₁, ⟨hbefore, hhere, ?_⟩, .else_ h.before h.here hi hhere hl₁⟩
      rw [hl₁, check, hr]
      exact hfails
    · rw [hr] at hfails
      have hhere₂ := getElem?_of_drop_eq_cons hnext
      refine ⟨_, { k₁ with stack := s }, l₂, ⟨?_, hhere₂, ?_⟩,
        .end_ h.before h.here hi hhere₂ (hl₂.trans hi.1)⟩
      · rw [List.take_add_one, hhere, steps_append, hbefore]
        show k₁.steps [l₁] = _
        rw [steps_cons, hl₁, hr]
        rfl
      · rw [hl₂, hi.1]
        exact (congrArg Prod.fst (run_checkAll_singleton _)).symm.trans hfails
  · rw [if_neg hi] at hrest
    obtain ⟨l', rest, hdrop, hl', -⟩ := List.map_eq_cons_iff.1 hrest
    have hhere := getElem?_of_drop_eq_cons hdrop
    exact ⟨_, k₁, l', ⟨hbefore, hhere, by rw [hl']; exact h.fails⟩, .instruction h.here hhere hl'⟩

/-- An `else` may be put before each `end` of an if that has none. The body is accepted or not as
before, and the run passes the same states. If it is not, then a corresponding instruction is to
blame, or again the missing `end` of the body, for the same reason. -/
theorem run_insert_elses (m : Module) (t : FuncType) (groups : List LocalGroup) (config : Config)
    (k : BodyChecker) (hk : start m t groups config = .ok k) (ls ls' : List Located)
    (hl : ls'.map (·.instr) = k.withElses (ls.map (·.instr))) (endOffset endOffset' : Nat) :
    ((k.steps ls' >>= fun k' => k'.finish endOffset') = .ok () ↔
      (k.steps ls >>= fun k' => k'.finish endOffset) = .ok ()) ∧
    (∀ k', k.steps ls' = .ok k' ↔ k.steps ls = .ok k') ∧
    (∀ n k', k.steps (ls.take n) = .ok k' → k.steps (ls'.take (k.shift ls n)) = .ok k') ∧
    ∀ d, (k.steps ls >>= fun k' => k'.finish endOffset) = .error d →
      ∃ d', (k.steps ls' >>= fun k' => k'.finish endOffset') = .error d' ∧ d'.error = d.error ∧
        ∃ f f', k.Blames ls endOffset f d ∧ k.Blames ls' endOffset' f' d' ∧
          k.Corresponds ls ls' f f' := by
  have hkept := kept_of_start hk
  have hsame {k' : BodyChecker} : k.steps ls' = .ok k' ↔ k.steps ls = .ok k' :=
    steps_withElses_iff hl
  refine ⟨?_, fun k' => hsame, fun n k' => steps_take_shift hl, fun d hd => ?_⟩
  · simp only [Except.bind_eq_ok_iff, hsame, finish_eq_ok_iff]
  · obtain ⟨f, hf⟩ := (run_eq_error_iff hkept).1 hd
    have hd' {f' : Fault} {d' : Diagnostic} (h : k.Blames ls' endOffset' f' d') :=
      (run_eq_error_iff hkept).2 ⟨f', h⟩
    cases hf with
    | instruction hstop =>
      obtain ⟨p, k₂, l', hstop', hcorr⟩ := hstop.withElses hl
      exact ⟨_, hd' (.instruction hstop'), rfl, _, _, .instruction hstop,
        .instruction hstop', hcorr⟩
    | unclosed hs hf hfun =>
      exact ⟨_, hd' (.unclosed (hsame.2 hs) hf hfun), rfl, _, _, .unclosed hs hf hfun,
        .unclosed (hsame.2 hs) hf hfun, .unclosed⟩

/-- Two ifs of one branch each. Only the inner one has a result, which nothing gives if its
condition is false. -/
def oneSided : List Located :=
  [⟨1, .op (.fixed (.i32Const 0))⟩, ⟨2, .if_ .empty⟩, ⟨3, .op (.fixed (.i32Const 1))⟩,
    ⟨4, .if_ (.result .i32)⟩, ⟨5, .op (.fixed (.i32Const 2))⟩, ⟨6, .end_⟩, ⟨7, .op .drop⟩,
    ⟨8, .end_⟩, ⟨9, .end_⟩]

/-- The inner `end` is still to blame, and no `else` is put before the outer one. -/
theorem run_insert_elses_oneSided :
    ∃ d, ((initial .empty ⟨[], []⟩ [] {}).steps
        (oneSided.take 5 ++ [⟨6, .else_⟩] ++ oneSided.drop 5) >>= fun k => k.finish 10) = .error d ∧
      d.error = .typeMismatch "if false branch" ["i32"] [] := by
  obtain ⟨-, -, -, h⟩ := run_insert_elses .empty ⟨[], []⟩ [] {}
    (initial .empty ⟨[], []⟩ [] {}) rfl oneSided
    (oneSided.take 5 ++ [⟨6, .else_⟩] ++ oneSided.drop 5) rfl 10 10
  obtain ⟨d, hd, he, -⟩ := h _ rfl
  exact ⟨d, hd, he⟩

end BodyChecker

end WasmCheck
