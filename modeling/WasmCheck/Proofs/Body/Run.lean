import WasmCheck.Body.Checker
import WasmCheck.Proofs.Outcome

/-!
# Runs of a checker

What a checker starts from, and how the run over a list of located instructions follows from the
rules of the instructions alone.
-/

namespace WasmCheck

open Stack Attempt

namespace BodyChecker

/-- A checker that has read nothing: the frame of the function is open. -/
def initial (m : Module) (t : FuncType) (groups : List LocalGroup) (config : Config) :
    BodyChecker where
  context := ⟨m, ⟨t.params, groups⟩, t.results⟩
  stack := ⟨[], [⟨.function, [], t.results, 0, false⟩], config.maxOperands, config.maxFrames⟩

theorem start_eq (m : Module) (t : FuncType) (groups : List LocalGroup) (config : Config) :
    start m t groups config =
      if config.maxLocals.toNat < (Locals.mk t.params groups).total then
        .error (.tooManyLocals (Locals.mk t.params groups).total)
      else if config.maxFrames = 0 then .error (.controlOverflow 0)
      else .ok (initial m t groups config) := by
  unfold start Locals.declare
  simp only
  split
  · rfl
  · rcases hm : config.maxFrames with _ | n
    · rfl
    · rw [if_neg (Nat.succ_ne_zero n), initial, hm]
      rfl

theorem start_eq_ok_iff {m : Module} {t : FuncType} {groups : List LocalGroup} {config : Config}
    {k : BodyChecker} : start m t groups config = .ok k ↔
      (Locals.mk t.params groups).total ≤ config.maxLocals.toNat ∧ 0 < config.maxFrames ∧
        initial m t groups config = k := by
  rw [start_eq]
  split
  · next h => simp [Nat.not_le.2 h]
  · next h =>
    split
    · next h' => simp [h']
    · next h' => simp [Nat.le_of_not_lt h, Nat.pos_of_ne_zero h']

theorem finish_eq_ok_iff (k : BodyChecker) (endOffset : Nat) :
    k.finish endOffset = .ok () ↔ k.stack.frames = [] := by
  simp [finish, finished, depth]

end BodyChecker

theorem BodyChecker.steps_cons (k : BodyChecker) (l : Located) (ls : List Located) :
    k.steps (l :: ls) = match run (l.instr.check k.context) k.stack with
      | (.ok (), s) => steps { k with stack := s } ls
      | (.error e, _) =>
        .error ((Diagnostic.located l.offset e).through (k.callback l.instr)) := by
  rw [steps, step, check]
  rcases run (l.instr.check k.context) k.stack with ⟨_ | _, s⟩ <;> rfl

theorem BodyChecker.steps_cons_eq_ok {k k' : BodyChecker} {l : Located} {ls : List Located}
    (h : k.steps (l :: ls) = .ok k') :
    ∃ k₁, k.check l.instr = (.ok (), k₁) ∧ k₁.steps ls = .ok k' := by
  rw [steps, step] at h
  rcases hr : k.check l.instr with ⟨_ | _, k₁⟩
  · rw [hr] at h
    cases h
  · rw [hr] at h
    exact ⟨k₁, rfl, h⟩

def Instr.checkAll (c : Context) : List Instr → Check Unit
  | [] => pure ()
  | i :: is => do
    i.check c
    checkAll c is

theorem post_checkAll_append {c : Context} {is js : List Instr} {s : Stack}
    {Q : Unit → Stack → Prop} {E : Error → Stack → Prop} :
    Post (Instr.checkAll c (is ++ js)) s Q E ↔
      Post (Instr.checkAll c is) s (fun _ t => Post (Instr.checkAll c js) t Q E) E := by
  induction is generalizing s with
  | nil => rfl
  | cons i is ih => simp only [List.cons_append, Instr.checkAll, post_bind, ih]

/-- A run of a checker ends as the rules of its instructions do. -/
theorem BodyChecker.steps_of_post {k : BodyChecker} (ls : List Located) {Q : Stack → Prop}
    {E : Error → Prop}
    (h : Post (Instr.checkAll k.context (ls.map (·.instr))) k.stack (fun _ => Q) (fun e _ => E e)) :
    match k.steps ls with
    | .ok k' => k'.context = k.context ∧ Q k'.stack
    | .error d => E d.error := by
  induction ls generalizing k with
  | nil => exact ⟨rfl, h⟩
  | cons l ls ih =>
    rw [List.map_cons, Instr.checkAll, post_bind] at h
    rw [steps_cons]
    rcases hr : run (l.instr.check k.context) k.stack with ⟨e | _, s⟩
    · exact h.of_error hr
    · exact ih (k := { k with stack := s }) (h.of_ok hr)

theorem BodyChecker.steps_eq_ok_iff {k k' : BodyChecker} {ls : List Located} :
    k.steps ls = .ok k' ↔ k'.context = k.context ∧
      run (Instr.checkAll k.context (ls.map (·.instr))) k.stack = (.ok (), k'.stack) := by
  induction ls generalizing k with
  | nil =>
    obtain ⟨c, s⟩ := k
    obtain ⟨c', s'⟩ := k'
    simp [steps, Instr.checkAll, eq_comm]
  | cons l ls ih =>
    rw [List.map_cons, Instr.checkAll, run_bind, steps_cons]
    rcases run (l.instr.check k.context) k.stack with ⟨e | _, s⟩
    · simp
    · exact ih

theorem Module.checkBody_eq {m : Module} {config : Config} {b : FunctionBody} {t : FuncType}
    (ht : m.types[b.typeIndex.toNat]? = some t) :
    m.checkBody config b =
      match BodyChecker.start m t b.locals config with
      | .ok k => k.steps b.code >>= fun k' => k'.finish b.endOffset
      | .error e => .error ((Diagnostic.unlocated e).through "OnLocalDeclCount") := by
  have hl : m.funcType b.typeIndex = .ok t := lookup_eq_ok_iff.2 ht
  rw [checkBody, hl]
  show (BodyChecker.start m t b.locals config).mapError _ >>= _ = _
  cases BodyChecker.start m t b.locals config <;> rfl

theorem Module.checkBody_eq_ok_iff {m : Module} {config : Config} {b : FunctionBody} :
    m.checkBody config b = .ok () ↔ ∃ t k k', m.types[b.typeIndex.toNat]? = some t ∧
      BodyChecker.start m t b.locals config = .ok k ∧ k.steps b.code = .ok k' ∧
      k'.stack.frames = [] := by
  cases ht : m.types[b.typeIndex.toNat]? with
  | none =>
    have hl : ∃ e, m.funcType b.typeIndex = .error e :=
      ⟨_, lookup_eq_error_iff.2 ⟨List.getElem?_eq_none_iff.1 ht, rfl⟩⟩
    obtain ⟨e, he⟩ := hl
    have hd : m.checkBody config b = .error ((Diagnostic.unlocated e).through "OnFunction") := by
      rw [checkBody, he]
      rfl
    simp [hd]
  | some t =>
    rw [checkBody_eq ht]
    cases hk : BodyChecker.start m t b.locals config with
    | error => simp [hk]
    | ok k =>
      cases hs : k.steps b.code with
      | error => simp [bind, Except.bind, hk, hs]
      | ok k' => simp [bind, Except.bind, hk, hs, BodyChecker.finish_eq_ok_iff]

end WasmCheck
