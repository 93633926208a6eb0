import WasmCheck.Proofs.Body.Invariant
import WasmCheck.Proofs.Body.StaticErrors

/-!
# What is to blame

A body that is refused has one first violation: its type, its declarations, one of its instructions,
or its end. The diagnostic is that of the first violation and depends on nothing behind it. It is a
static one, and so it never looks like a trap.
-/

namespace WasmCheck

open Stack Attempt

inductive Fault where
  | signature
  | declaration
  /-- The instruction at a position. -/
  | instruction (n : Nat)
  | unclosed
deriving DecidableEq, Repr

theorem Stack.Kept.exists_function {results : List ValueType} {mo mf : Nat} {s : Stack}
    (h : Kept results mo mf s) (hs : s.frames ≠ []) : ∃ f ∈ s.frames, f.kind = .function := by
  cases h with
  | closed => exact absurd rfl hs
  | opened h =>
    obtain ⟨inner, u, hf, -⟩ := h.layered.outermost
    exact ⟨_, hf ▸ List.mem_append_right inner (List.mem_singleton.2 rfl), rfl⟩

namespace BodyChecker

variable {k : BodyChecker} {ls : List Located} {results : List ValueType} {mo mf : Nat}

/-- The instructions before position `n` are accepted and lead to `k'`, where the instruction `l` at
that position fails. -/
structure StopsAt (k : BodyChecker) (ls : List Located) (n : Nat) (k' : BodyChecker) (l : Located)
    (e : Error) : Prop where
  before : k.steps (ls.take n) = .ok k'
  here : ls[n]? = some l
  fails : (k'.check l.instr).1 = .error e

namespace StopsAt

variable {n n' : Nat} {k₁ k₂ : BodyChecker} {l l' : Located} {e e' : Error}

theorem steps (h : k.StopsAt ls n k₁ l e) :
    k.steps ls = .error ⟨some l.offset, e, [k₁.callback l.instr]⟩ := by
  obtain ⟨hn, hl⟩ := List.getElem?_eq_some_iff.1 h.here
  have hsplit : ls = ls.take n ++ l :: ls.drop (n + 1) := by
    rw [← hl, ← List.drop_eq_getElem_cons hn, List.take_append_drop]
  have hfails : (run (l.instr.check k₁.context) k₁.stack).1 = .error e := h.fails
  rw [hsplit, steps_append, h.before]
  show k₁.steps (l :: _) = _
  rw [steps_cons]
  generalize run (l.instr.check k₁.context) k₁.stack = r at hfails ⊢
  rcases r with ⟨_ | _, s⟩
  · cases hfails
    rfl
  · cases hfails

/-- Whatever follows the instruction that fails, the run stops there. -/
theorem append (h : k.StopsAt ls n k₁ l e) (rest : List Located) :
    k.StopsAt (ls.take (n + 1) ++ rest) n k₁ l e := by
  obtain ⟨hn, -⟩ := List.getElem?_eq_some_iff.1 h.here
  have hlen : (ls.take (n + 1)).length = n + 1 := List.length_take_of_le hn
  refine ⟨?_, ?_, h.fails⟩
  · rw [List.take_append_of_le_length (by omega), List.take_take, Nat.min_eq_left (Nat.le_succ n)]
    exact h.before
  · rw [List.getElem?_append_left (by omega), List.getElem?_take_of_lt (Nat.lt_succ_self n)]
    exact h.here

theorem le (h : k.StopsAt ls n k₁ l e) (h' : k.StopsAt ls n' k₂ l' e') : n' ≤ n := by
  refine Nat.le_of_not_lt fun hlt => ?_
  have htake : ls.take n' = ls.take (n + 1) ++ (ls.take n').drop (n + 1) := by
    have := List.take_append_drop (n + 1) (ls.take n')
    rwa [List.take_take, Nat.min_eq_left hlt, eq_comm] at this
  have hbefore := h'.before
  rw [htake, (h.append _).steps] at hbefore
  cases hbefore

theorem unique (h : k.StopsAt ls n k₁ l e) (h' : k.StopsAt ls n' k₂ l' e') : n = n' :=
  Nat.le_antisymm (h'.le h) (h.le h')

theorem cons {l₀ : Located} {s : Stack} (hr : run (l₀.instr.check k.context) k.stack = (.ok (), s))
    (h : StopsAt { k with stack := s } ls n k₁ l e) : k.StopsAt (l₀ :: ls) (n + 1) k₁ l e where
  before := by
    rw [List.take_succ_cons, steps_cons, hr]
    exact h.before
  here := h.here
  fails := h.fails

end StopsAt

theorem exists_stopsAt {d : Diagnostic} (h : k.steps ls = .error d) :
    ∃ n k' l e, k.StopsAt ls n k' l e ∧ d = ⟨some l.offset, e, [k'.callback l.instr]⟩ := by
  induction ls generalizing k with
  | nil => cases h
  | cons l ls ih =>
    rw [steps_cons] at h
    split at h
    · next s hr =>
      obtain ⟨n, k', l', e, hs, hd⟩ := ih h
      exact ⟨n + 1, k', l', e, hs.cons hr, hd⟩
    · next e s hr =>
      cases h
      exact ⟨0, k, l, e, ⟨rfl, rfl, congrArg Prod.fst hr⟩, rfl⟩

theorem kept_steps {k' : BodyChecker} (hk : Kept results mo mf k.stack)
    (h : k.steps ls = .ok k') : Kept results mo mf k'.stack := by
  induction ls generalizing k with
  | nil => cases h; exact hk
  | cons l ls ih =>
    rw [steps_cons] at h
    split at h
    · next s hr =>
      have hs := kept_check hk l.instr
      simp only [check, hr] at hs
      exact ih hs h
    · cases h

/-- The callback of an instruction is its own, but for the `end` that finds no frame open except
that of the function. -/
theorem callback_eq (hk : Kept results mo mf k.stack) (i : Instr) :
    k.callback i = if i = .end_ ∧ k.stack.frames.map (·.kind) = [.function] then "EndFunctionBody"
      else i.callback := by
  have hdepth : k.stack.depth = 1 ↔ k.stack.frames.map (·.kind) = [.function] := by
    generalize k.stack = s at hk
    cases hk with
    | closed => simp [depth]
    | opened h => simp [depth, h.layered.function_iff]
  simp only [callback, hdepth]

/-- The first violation in the code of a body, and the diagnostic that blames it. -/
inductive Blames (k : BodyChecker) (ls : List Located) (endOffset : Nat) :
    Fault → Diagnostic → Prop where
  | instruction {n : Nat} {k' : BodyChecker} {l : Located} {e : Error} : k.StopsAt ls n k' l e →
      Blames k ls endOffset (.instruction n) ⟨some l.offset, e,
        [if l.instr = .end_ ∧ k'.stack.frames.map (·.kind) = [.function] then "EndFunctionBody"
          else l.instr.callback]⟩
  | unclosed {k' : BodyChecker} {f : Frame} : k.steps ls = .ok k' → f ∈ k'.stack.frames →
      f.kind = .function → Blames k ls endOffset .unclosed ⟨some endOffset, .unclosedBody, []⟩

/-- A run and its end fail if and only if something is to blame. -/
theorem run_eq_error_iff (hk : Kept results mo mf k.stack) {endOffset : Nat} {d : Diagnostic} :
    (k.steps ls >>= fun k' => k'.finish endOffset) = .error d ↔
      ∃ f, k.Blames ls endOffset f d := by
  constructor
  · intro h
    cases hs : k.steps ls with
    | error d' =>
      rw [hs] at h
      cases h
      obtain ⟨n, k', l, e, hstop, rfl⟩ := exists_stopsAt hs
      rw [callback_eq (kept_steps hk hstop.before)]
      exact ⟨_, .instruction hstop⟩
    | ok k' =>
      rw [hs] at h
      change k'.finish endOffset = _ at h
      unfold finish at h
      split at h
      · cases h
      · next hopen =>
        cases h
        have hkept := kept_steps hk hs
        obtain ⟨f, hf, hkind⟩ := hkept.exists_function (by simpa [finished, depth] using hopen)
        exact ⟨.unclosed, .unclosed hs hf hkind⟩
  · rintro ⟨f, h⟩
    cases h with
    | instruction hstop =>
      rw [← callback_eq (kept_steps hk hstop.before), hstop.steps]
      rfl
    | @unclosed k' _ hs hf =>
      have hopen : ¬k'.finished = true := by
        simpa [finished, depth] using List.ne_nil_of_mem hf
      rw [hs]
      exact if_neg hopen

theorem Blames.fault_unique {endOffset : Nat} {f f' : Fault} {d d' : Diagnostic}
    (h : k.Blames ls endOffset f d) (h' : k.Blames ls endOffset f' d') : f = f' := by
  cases h with
  | instruction hstop =>
    cases h' with
    | instruction hstop' => rw [hstop.unique hstop']
    | unclosed hs =>
      rw [hstop.steps] at hs
      cases hs
  | unclosed hs =>
    cases h' with
    | instruction hstop =>
      rw [hstop.steps] at hs
      cases hs
    | unclosed => rfl

theorem Blames.isValidation {endOffset : Nat} {f : Fault} {d : Diagnostic}
    (h : k.Blames ls endOffset f d) : d.error.isValidation = true := by
  cases h with
  | instruction hstop => exact Instr.static_check _ _ _ _ hstop.fails
  | unclosed => rfl

end BodyChecker

theorem BodyChecker.capacity_of_start {m : Module} {t : FuncType} {groups : List LocalGroup}
    {config : Config} {e : Error} (h : start m t groups config = .error e) :
    (config.maxLocals.toNat < (Locals.mk t.params groups).total ∨ config.maxFrames = 0) ∧
      e.category = .capacity := by
  rw [start_eq] at h
  split at h
  · next hlocals => cases h; exact ⟨.inl hlocals, rfl⟩
  split at h
  · next hframes => cases h; exact ⟨.inr hframes, rfl⟩
  · cases h

/-- The offset of an error as a report shows it, if there is one. -/
def Diagnostic.place (d : Diagnostic) : String :=
  match d.offset with
  | some offset => Text.hex 7 offset ++ ": "
  | none => ""

theorem Diagnostic.lines_of_isValidation {d : Diagnostic} (h : d.error.isValidation = true) :
    d.lines = d.entries.map fun entry => d.place ++ "error: " ++ entry.2 := by
  have htrap : d.error.isTrap = false := by
    simp only [Error.isValidation, Bool.or_eq_true, decide_eq_true_eq] at h
    rcases h with hc | hc <;> rw [Error.isTrap, hc] <;> rfl
  have hlead : d.lead = d.place ++ "error: " := by
    obtain ⟨_ | offset, e, cs⟩ := d
    · exact if_neg (Bool.eq_false_iff.1 htrap)
    · show _ ++ ": error: " = _ ++ ": " ++ "error: "
      rw [String.append_assoc]
      rfl
  rw [lines, hlead]

namespace Module

variable {m : Module} {config : Config} {b : FunctionBody} {f f' : Fault} {d d' : Diagnostic}

inductive Blames (m : Module) (config : Config) (b : FunctionBody) : Fault → Diagnostic → Prop where
  /-- The body has no type. -/
  | signature : m.types.length ≤ b.typeIndex.toNat →
      Blames m config b .signature
        ⟨none, .indexOutOfRange "type" b.typeIndex (spaceSize m.types), ["OnFunction"]⟩
  /-- A limit is too low for the variables, or for the frame of the function. -/
  | declaration {t : FuncType} {e : Error} : m.types[b.typeIndex.toNat]? = some t →
      config.maxLocals.toNat < (Locals.mk t.params b.locals).total ∨ config.maxFrames = 0 →
      BodyChecker.start m t b.locals config = .error e → e.category = .capacity →
      Blames m config b .declaration ⟨none, e, ["OnLocalDeclCount"]⟩
  | code {t : FuncType} {k : BodyChecker} {f : Fault} {d : Diagnostic} :
      m.types[b.typeIndex.toNat]? = some t → BodyChecker.start m t b.locals config = .ok k →
      k.Blames b.code b.endOffset f d → Blames m config b f d

theorem exists_blames (h : m.checkBody config b = .error d) : ∃ f, m.Blames config b f d := by
  cases ht : m.types[b.typeIndex.toNat]? with
  | none =>
    have hlen := List.getElem?_eq_none_iff.1 ht
    rw [checkBody, funcType, lookup_eq_error_iff.2 ⟨hlen, rfl⟩] at h
    cases h
    exact ⟨_, .signature hlen⟩
  | some t =>
    rw [checkBody_eq ht] at h
    cases hk : BodyChecker.start m t b.locals config with
    | error e =>
      rw [hk] at h
      cases h
      obtain ⟨hlow, hc⟩ := BodyChecker.capacity_of_start hk
      exact ⟨_, .declaration ht hlow hk hc⟩
    | ok k =>
      rw [hk] at h
      obtain ⟨f, hf⟩ := (BodyChecker.run_eq_error_iff (BodyChecker.kept_of_start hk)).1 h
      exact ⟨f, .code ht hk hf⟩

theorem Blames.checkBody (h : m.Blames config b f d) : m.checkBody config b = .error d := by
  cases h with
  | signature hlen =>
    rw [Module.checkBody, funcType, lookup_eq_error_iff.2 ⟨hlen, rfl⟩]
    rfl
  | declaration ht _ hk =>
    rw [checkBody_eq ht, hk]
    rfl
  | code ht hk h =>
    rw [checkBody_eq ht, hk]
    exact (BodyChecker.run_eq_error_iff (BodyChecker.kept_of_start hk)).2 ⟨_, h⟩

theorem Blames.unique (h : m.Blames config b f d) (h' : m.Blames config b f' d') :
    f = f' ∧ d = d' := by
  refine ⟨?_, Except.error.inj (h.checkBody.symm.trans h'.checkBody)⟩
  have outOfRange {t : FuncType} (hlen : m.types.length ≤ b.typeIndex.toNat)
      (ht : m.types[b.typeIndex.toNat]? = some t) : False :=
    Nat.not_le.2 (List.getElem?_eq_some_iff.1 ht).1 hlen
  cases h with
  | signature hlen =>
    cases h' with
    | signature => rfl
    | declaration ht' | code ht' => exact (outOfRange hlen ht').elim
  | declaration ht _ hk =>
    cases h' with
    | signature hlen => exact (outOfRange hlen ht).elim
    | declaration => rfl
    | code ht' hk' =>
      cases ht.symm.trans ht'
      cases hk.symm.trans hk'
  | code ht hk h =>
    cases h' with
    | signature hlen => exact (outOfRange hlen ht).elim
    | declaration ht' _ hk' =>
      cases ht.symm.trans ht'
      cases hk.symm.trans hk'
    | code ht' hk' h' =>
      cases ht.symm.trans ht'
      cases hk.symm.trans hk'
      exact h.fault_unique h'

theorem Blames.isValidation (h : m.Blames config b f d) : d.error.isValidation = true := by
  cases h with
  | signature => rfl
  | declaration _ _ _ hc => simp [Error.isValidation, hc]
  | code _ _ h => exact h.isValidation

/-- What follows the instruction that is to blame does not matter, nor does the end of the body. -/
theorem Blames.append {n : Nat} (h : m.Blames config b (.instruction n) d) (rest : List Located)
    (endOffset : Nat) :
    m.Blames config { b with code := b.code.take (n + 1) ++ rest, endOffset := endOffset }
      (.instruction n) d := by
  cases h with
  | code ht hk h =>
    cases h with
    | instruction hstop => exact .code ht hk (.instruction (hstop.append rest))

/-- A refusal is static and blames the first violation: exactly one thing is to blame for it; and if
that is an instruction, nothing behind it matters. -/
theorem checkBody_blames (m : Module) (config : Config) (b : FunctionBody) (d : Diagnostic)
    (h : m.checkBody config b = .error d) :
    (d.error.category = .validation ∨ d.error.category = .capacity) ∧
      (d.lines = d.entries.map fun entry => d.place ++ "error: " ++ entry.2) ∧
      (∃ f, m.Blames config b f d ∧ ∀ f' d', m.Blames config b f' d' → f' = f ∧ d' = d) ∧
      ∀ n, m.Blames config b (.instruction n) d → ∀ rest endOffset,
        m.checkBody config { b with code := b.code.take (n + 1) ++ rest, endOffset := endOffset } =
          .error d := by
  obtain ⟨f, hf⟩ := exists_blames h
  have hstatic := hf.isValidation
  refine ⟨by simpa [Error.isValidation] using hstatic, Diagnostic.lines_of_isValidation hstatic,
    ⟨f, hf, fun f' d' hf' => hf'.unique hf⟩, fun n hn rest endOffset => ?_⟩
  exact (hn.append rest endOffset).checkBody

/-- The block leaves nothing, but the function has to give an `i32`. -/
def missingResult : FunctionBody :=
  ⟨0, [], [⟨1, .block .empty⟩, ⟨3, .end_⟩, ⟨4, .end_⟩, ⟨5, .op .drop⟩], 6⟩

/-- The last `end` is to blame, also if other instructions follow it. -/
theorem checkBody_blames_missingResult :
    (empty.addType ⟨[], [.i32]⟩).2.checkBody {}
        { missingResult with
          code := missingResult.code.take 3 ++ [⟨5, .op .unreachable⟩, ⟨6, .end_⟩]
          endOffset := 7 } =
      .error ⟨some 4, .typeMismatch "implicit return" ["i32"] [], ["EndFunctionBody"]⟩ := by
  let k := BodyChecker.initial (empty.addType ⟨[], [.i32]⟩).2 ⟨[], [.i32]⟩ [] {}
  have hstop : k.StopsAt missingResult.code 2 k ⟨4, .end_⟩
      (.typeMismatch "implicit return" ["i32"] []) := ⟨rfl, rfl, rfl⟩
  have hblame : Module.Blames (empty.addType ⟨[], [.i32]⟩).2 {} missingResult (.instruction 2)
      ⟨some 4, .typeMismatch "implicit return" ["i32"] [], ["EndFunctionBody"]⟩ :=
    .code rfl rfl (.instruction hstop)
  exact (checkBody_blames _ _ _ _ hblame.checkBody).2.2.2 2 hblame _ _

end Module

end WasmCheck
