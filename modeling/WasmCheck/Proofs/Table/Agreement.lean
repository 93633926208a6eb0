import WasmCheck.Table.Store
import WasmCheck.Proofs.Table.Uniform
import WasmCheck.Proofs.Body.Rules
import WasmCheck.Proofs.Body.Run
import WasmCheck.Proofs.Typing.Signature

/-!
# The checker and the store agree

A checker and a store are fed the same instructions: constants, references, drops, and those on
tables. The operands of the checker are the types of the values on the stack of the store, and the
tables and segments are those that the module declares. Every instruction that the checker accepts
keeps it that way, or traps.
-/

namespace WasmCheck

open Operand (known)
open Stack Attempt

/-! ## Running on a store -/

def Instr.constant? : Instr → Option Value
  | .op (.fixed (.i32Const b)) => some (.i32 b)
  | .op (.fixed (.i64Const b)) => some (.i64 b)
  | .op (.fixed (.f32Const b)) => some (.f32 b)
  | .op (.fixed (.f64Const b)) => some (.f64 b)
  | .op (.fixed (.refNull t)) => some t.null
  | .op (.fixed (.refFunc i)) => some (.funcref (some i))
  | _ => none

def Instr.execute? : Instr → Option (Exec Unit)
  | .op .drop => some do let _ ← Store.pop
  | i => (i.constant?.map Store.push).or (i.tableOp?.map TableOp.execute)

/-- The instructions that need nothing but a store, with what they do. -/
inductive Instr.Executes : Instr → Exec Unit → Prop where
  | drop : Executes (.op .drop) (do let _ ← Store.pop)
  | i32Const (b : UInt32) : Executes (.op (.fixed (.i32Const b))) (Store.push (.i32 b))
  | i64Const (b : UInt64) : Executes (.op (.fixed (.i64Const b))) (Store.push (.i64 b))
  | f32Const (b : UInt32) : Executes (.op (.fixed (.f32Const b))) (Store.push (.f32 b))
  | f64Const (b : UInt64) : Executes (.op (.fixed (.f64Const b))) (Store.push (.f64 b))
  | refNull (t : RefType) : Executes (.op (.fixed (.refNull t))) (Store.push t.null)
  | refFunc (i : UInt32) : Executes (.op (.fixed (.refFunc i))) (Store.push (.funcref (some i)))
  | table (o : TableOp) : Executes (.op (.fixed (.table o))) o.execute

theorem Instr.execute?_eq_some_iff {i : Instr} {x : Exec Unit} :
    i.execute? = some x ↔ i.Executes x := by
  constructor
  · intro h
    cases i with
    | op o =>
      cases o with
      | drop =>
        cases h
        exact .drop
      | fixed o =>
        cases o with
        | table o =>
          cases h
          exact .table o
        | i32Const b =>
          cases h
          exact .i32Const b
        | i64Const b =>
          cases h
          exact .i64Const b
        | f32Const b =>
          cases h
          exact .f32Const b
        | f64Const b =>
          cases h
          exact .f64Const b
        | refNull t =>
          cases h
          exact .refNull t
        | refFunc j =>
          cases h
          exact .refFunc j
        | _ => cases h
      | _ => cases h
    | _ => cases h
  · intro h
    cases h <;> rfl

/-- The checker accepts the instructions one after the other, and the store carries them out. -/
inductive Runs : BodyChecker → Store → List Instr → BodyChecker → Store → Prop where
  | nil {k : BodyChecker} {s : Store} : Runs k s [] k s
  | cons {k k' k'' : BodyChecker} {s s' s'' : Store} {i : Instr} {is : List Instr}
      {x : Exec Unit} : k.check i = (.ok (), k') → i.execute? = some x → run x s = (.ok (), s') →
      Runs k' s' is k'' s'' → Runs k s (i :: is) k'' s''

namespace Store

/-- The store has the tables and the segments that the module declares, of the declared types. Its
tables have come about by the operations, as all tables do. -/
structure Matches (m : Module) (s : Store) : Prop where
  tables : ∀ (i : Nat) (t : TableType), m.tables[i]? = some t →
    ∃ u, s.tables[i]? = some u ∧ u.type.element = t.element
  segments : ∀ (i : Nat) (g : ElementSegment), m.segments[i]? = some g →
    ∃ items, s.segments[i]? = some items ∧ ∀ v ∈ items, v.type = g.type.toValueType
  built : ∀ t ∈ s.tables, t.Built

/-- The function frame of the checker is open alone and reachable, its operands are the types of the
values of the store, and the store matches the module. -/
structure Agrees (k : BodyChecker) (s : Store) : Prop where
  frame : ∃ results, k.stack.frames = [⟨.function, [], results, 0, false⟩]
  operands : k.stack.operands = s.stack.map fun v => known v.type
  store : s.Matches k.context.module

namespace Matches

variable {m : Module} {s : Store} {i : UInt32} {t t' : Table}

theorem of_stack (h : s.Matches m) (vs : List Value) : Matches m { s with stack := vs } :=
  ⟨h.tables, h.segments, h.built⟩

theorem putTable (h : s.Matches m) (ht : s.tables[i.toNat]? = some t) (hb : t'.Built)
    (he : t'.type = t.type) : Matches m { s with tables := s.tables.set i.toNat t' } where
  tables j type hj := by
    obtain ⟨u, hu, hue⟩ := h.tables j type hj
    by_cases hij : i.toNat = j
    · subst hij
      rw [ht] at hu
      cases hu
      refine ⟨t', ?_, by rw [he, hue]⟩
      exact List.getElem?_set_self (List.getElem?_eq_some_iff.1 ht).1
    · exact ⟨u, by rwa [List.getElem?_set_ne hij], hue⟩
  segments := h.segments
  built u hu := by
    rcases List.mem_or_eq_of_mem_set hu with hu | rfl
    · exact h.built u hu
    · exact hb

theorem dropSegment (h : s.Matches m) (j : Nat) :
    Matches m { s with segments := s.segments.set j [] } where
  tables := h.tables
  segments n g hg := by
    obtain ⟨items, hi, ht⟩ := h.segments n g hg
    by_cases hj : j = n
    · subst hj
      refine ⟨[], ?_, by simp⟩
      exact List.getElem?_set_self (List.getElem?_eq_some_iff.1 hi).1
    · exact ⟨items, by rwa [List.getElem?_set_ne hj], ht⟩
  built := h.built

end Matches

/-! ## Table instructions -/

/-- Values of the given types lie above `rest`, the top first, and the store matches the module. -/
def Holds (m : Module) (ts : List ValueType) (rest : List Value) (s : Store) : Prop :=
  s.Matches m ∧ ∃ vs, s.stack = vs ++ rest ∧ vs.map Value.type = ts

namespace Holds

variable {m : Module} {s : Store} {i : UInt32} {ts : List ValueType} {rest : List Value}

theorem push (h : Holds m ts rest s) (v : Value) :
    Holds m (v.type :: ts) rest { s with stack := v :: s.stack } := by
  obtain ⟨hm, vs, hstack, hvs⟩ := h
  exact ⟨hm.of_stack _, v :: vs, by rw [hstack, List.cons_append], by rw [List.map_cons, hvs]⟩

theorem pop {t : ValueType} (h : Holds m (t :: ts) rest s) {Q : Value → Store → Prop}
    {E : Error → Store → Prop} (hQ : ∀ (v : Value) s', v.type = t → Holds m ts rest s' → Q v s') :
    Post Store.pop s Q E := by
  obtain ⟨hm, vs, hstack, hvs⟩ := h
  obtain ⟨v, ws, rfl, hv, hws⟩ := List.map_eq_cons_iff.1 hvs
  rw [List.cons_append] at hstack
  simp only [Post, run, Store.pop, hstack]
  exact hQ v _ hv ⟨hm.of_stack _, ws, rfl, hws⟩

theorem popWord (h : Holds m (.i32 :: ts) rest s) {Q : UInt32 → Store → Prop}
    {E : Error → Store → Prop} (hQ : ∀ w s', Holds m ts rest s' → Q w s') :
    Post Store.popWord s Q E := by
  refine post_bind.2 (h.pop fun v s' hv hs => ?_)
  cases v with
  | i32 w => exact hQ w s' hs
  | _ => cases hv

theorem table (h : Holds m ts rest s) {type : TableType} (hi : m.tables[i.toNat]? = some type)
    {Q : Table → Store → Prop} {E : Error → Store → Prop}
    (hQ : ∀ t : Table, s.tables[i.toNat]? = some t → t.Built →
      t.type.element = type.element → Q t s) :
    Post (Store.table i) s Q E := by
  obtain ⟨t, ht, he⟩ := h.1.tables _ _ hi
  simp only [Post, run, Store.table, ht]
  exact hQ t ht (h.1.built t (List.mem_of_getElem? ht)) he

theorem segment (h : Holds m ts rest s) {g : ElementSegment}
    (hi : m.segments[i.toNat]? = some g) {Q : List Value → Store → Prop}
    {E : Error → Store → Prop}
    (hQ : ∀ items : List Value, (∀ v ∈ items, v.type = g.type.toValueType) → Q items s) :
    Post (Store.segment i) s Q E := by
  obtain ⟨items, hs, ht⟩ := h.1.segments _ _ hi
  simp only [Post, run, Store.segment, hs]
  exact hQ items ht

theorem put (h : Holds m ts rest s) {t : Table} (ht : s.tables[i.toNat]? = some t)
    {r : Except Error Table} (hr : t.Changes r) :
    Post (do putTable i (← Attempt.ofExcept r)) s (fun _ => Holds m ts rest)
      (fun e _ => e.category = .runtimeTrap) := by
  rw [post_bind, post_ofExcept]
  unfold Table.Changes at hr
  refine ⟨fun t' h' => ?_, fun e h' => ?_⟩
  · rw [h'] at hr
    exact ⟨h.1.putTable ht hr.1 hr.2, h.2⟩
  · rw [h'] at hr
    exact hr

theorem onTable (h : Holds m ts rest s) {type : TableType} (hi : m.tables[i.toNat]? = some type)
    {x : Change Unit} (hx : x.Atomic)
    (hf : ∀ t : Table, t.Built → t.type.element = type.element → t.Changes (x.final t)) :
    Post (Store.onTable i x) s (fun _ => Holds m ts rest)
      (fun e _ => e.category = .runtimeTrap) := by
  rw [onTable_of_atomic hx]
  exact post_bind.2 (h.table hi fun t ht hb he => h.put ht (hf t hb he))

end Holds

end Store

open Store in
/-- A table instruction pops what its type says and pushes what its type says, or traps. -/
theorem TableOp.post_execute {m : Module} {s : Store} {rest : List Value} {o : TableOp}
    {ps rs : List ValueType} (ho : o.HasType m ps rs) (hs : s.Holds m ps.reverse rest) :
    Post o.execute s (fun _ => Holds m rs.reverse rest) (fun e _ => e.category = .runtimeTrap) := by
  cases ho with
  | get hi =>
    refine post_bind.2 (hs.popWord fun index s hs => ?_)
    refine post_bind.2 (hs.table hi fun t _ hb he => ?_)
    rw [post_bind, post_ofExcept]
    refine ⟨fun v h => ?_, fun e h => Table.trap_of_get h⟩
    rw [← he, ← Table.type_of_get hb h]
    exact hs.push v
  | set hi =>
    refine post_bind.2 (hs.pop fun v s hv hs => ?_)
    refine post_bind.2 (hs.popWord fun index s hs => ?_)
    exact hs.onTable hi (Change.atomic_set index v) fun t hb he =>
      Table.changes_set hb (by rw [hv, he]) index
  | size hi => exact post_bind.2 (hs.table hi fun t _ _ _ => hs.push (.i32 t.size))
  | grow hi =>
    refine post_bind.2 (hs.popWord fun delta s hs => ?_)
    refine post_bind.2 (hs.pop fun v s hv hs => ?_)
    rw [onTable_grow]
    refine post_bind.2 (post_bind.2 (hs.table hi fun t ht hb he => ?_))
    rcases Table.grow_cases hb (by rw [hv, he]) delta with hg | ⟨t', hg, hb', he'⟩
    · rw [hg]
      exact hs.push (.i32 0xFFFFFFFF)
    · rw [hg]
      exact Holds.push ⟨hs.1.putTable ht hb' he', hs.2⟩ (.i32 t.size)
  | fill hi =>
    refine post_bind.2 (hs.popWord fun len s hs => ?_)
    refine post_bind.2 (hs.pop fun v s hv hs => ?_)
    refine post_bind.2 (hs.popWord fun start s hs => ?_)
    exact hs.onTable hi (Change.atomic_fill start v len) fun t hb he =>
      Table.changes_fill hb (by rw [hv, he]) start len
  | copy hi hj hsame =>
    refine post_bind.2 (hs.popWord fun len s hs => ?_)
    refine post_bind.2 (hs.popWord fun src s hs => ?_)
    refine post_bind.2 (hs.popWord fun dst s hs => ?_)
    rw [copyTable_eq]
    refine post_bind.2 (hs.table hi fun t ht hb he => ?_)
    refine post_bind.2 (hs.table hj fun source _ hb' he' => ?_)
    exact hs.put ht (Table.changes_copyFrom hb hb' (by rw [he, he', hsame]) dst src len)
  | init hi hj hsame =>
    refine post_bind.2 (hs.popWord fun len s hs => ?_)
    refine post_bind.2 (hs.popWord fun src s hs => ?_)
    refine post_bind.2 (hs.popWord fun dst s hs => ?_)
    refine post_bind.2 (hs.segment hj fun items hitems => ?_)
    refine hs.onTable hi (Change.atomic_init dst items src len) fun t hb he =>
      Table.changes_init hb (fun v hv => ?_) dst src len
    rw [hitems v hv, he, hsame]
  | dropSegment hj =>
    exact post_bind.2 (hs.segment hj fun _ _ => ⟨hs.1.dropSegment _, hs.2⟩)

/-! ## Steps of both -/

theorem Instr.Executes.kinds {i : Instr} {x : Exec Unit} (h : i.Executes x) :
    (i = .op .drop ∧ x = do let _ ← Store.pop) ∨
    (∃ o v, i = .op (.fixed o) ∧ x = Store.push v ∧
      ∀ c t, o.type c = .ok t → t = ⟨[], [v.type]⟩) ∨
    ∃ o, i = .op (.fixed (.table o)) ∧ x = o.execute := by
  cases h with
  | drop => exact .inl ⟨rfl, rfl⟩
  | table o => exact .inr (.inr ⟨o, rfl, rfl⟩)
  | refNull t =>
    refine .inr (.inl ⟨_, _, rfl, rfl, fun c ft ht => ?_⟩)
    cases ht
    rw [Value.type_null]
  | refFunc j =>
    refine .inr (.inl ⟨_, _, rfl, rfl, fun c t ht => ?_⟩)
    simp only [FixedOp.type, Except.bind_eq_ok_iff, Except.pure_eq_ok_iff] at ht
    obtain ⟨_, -, rfl⟩ := ht
    rfl
  | _ => exact .inr (.inl ⟨_, _, rfl, rfl, fun c t ht => by cases ht; rfl⟩)

theorem FixedOp.post_check {c : Context} {o : FixedOp} {f : Frame} {fs : List Frame}
    {xs below : List Operand} {mo mf : Nat} (hf : f.height = below.length) :
    Post (o.check c) ⟨xs ++ below, f :: fs, mo, mf⟩
      (fun _ s => ∃ t, o.type c = .ok t ∧ fits f.unreachable xs t.params.reverse = true ∧
        s = ⟨(t.results.reverse.map .known ++ xs.drop t.params.length) ++ below, f :: fs, mo, mf⟩)
      (fun _ _ => True) := by
  rw [FixedOp.check, post_bind, post_ofExcept]
  refine ⟨fun t ht => ?_, fun _ _ => trivial⟩
  rw [post_apply hf]
  split
  · next hp =>
    split
    · trivial
    · exact ⟨t, ht, hp, rfl⟩
  · trivial

theorem map_type_take_of_fits {vs : List Value} {ts : List ValueType}
    (h : fits false (vs.map fun v => known v.type) ts = true) :
    (vs.take ts.length).map Value.type = ts := by
  induction ts generalizing vs with
  | nil => rfl
  | cons t ts ih =>
    cases vs with
    | nil => cases h
    | cons v vs =>
      rw [List.map_cons, fits, Bool.and_eq_true] at h
      rw [List.length_cons, List.take_succ_cons, List.map_cons, ih h.2,
        Operand.known_fits.1 h.1]

theorem BodyChecker.check_eq_ok {k k' : BodyChecker} {i : Instr} (h : k.check i = (.ok (), k')) :
    run (i.check k.context) k.stack = (.ok (), k'.stack) ∧ k'.context = k.context := by
  unfold check at h
  rcases hr : run (i.check k.context) k.stack with ⟨r, s⟩
  rw [hr] at h
  cases h
  exact ⟨rfl, rfl⟩

theorem FixedOp.stack_of_check {c : Context} {o : FixedOp} {f : Frame} {xs : List Operand}
    {mo mf : Nat} {s : Stack} (hf : f.height = 0)
    (h : run (Instr.check c (.op (.fixed o))) ⟨xs, [f], mo, mf⟩ = (.ok (), s)) :
    ∃ t, o.type c = .ok t ∧ fits f.unreachable xs t.params.reverse = true ∧
      s = ⟨t.results.reverse.map .known ++ xs.drop t.params.length, [f], mo, mf⟩ := by
  have hp : Post (Instr.check c (.op (.fixed o))) ⟨xs ++ [], [f], mo, mf⟩ _ _ :=
    WasmCheck.post_check.2 (FixedOp.post_check hf)
  rw [List.append_nil] at hp
  obtain ⟨t, ht, hfit, rfl⟩ := hp.of_ok h
  exact ⟨t, ht, hfit, by rw [List.append_nil]⟩

theorem stack_of_check_drop {c : Context} {f : Frame} {xs : List Operand} {mo mf : Nat} {s : Stack}
    (hf : f.height = 0) (h : run (Instr.check c (.op .drop)) ⟨xs, [f], mo, mf⟩ = (.ok (), s)) :
    ¬(xs = [] ∧ f.unreachable = false) ∧ s = ⟨xs.drop 1, [f], mo, mf⟩ := by
  have hp : Post (Instr.check c (.op .drop)) ⟨xs ++ [], [f], mo, mf⟩
      (fun _ s => ¬(xs = [] ∧ f.unreachable = false) ∧ s = ⟨xs.drop 1 ++ [], [f], mo, mf⟩)
      (fun _ _ => True) := by
    rw [WasmCheck.post_check, Instr.rule, Op.check, post_bind, post_popAny hf]
    split
    · trivial
    · next hx => exact ⟨hx, rfl⟩
  rw [List.append_nil, List.append_nil] at hp
  exact hp.of_ok h

/-- One instruction keeps the agreement, or traps. -/
theorem Store.Agrees.step {k k' : BodyChecker} {s : Store} {i : Instr} {x : Exec Unit}
    (h : Agrees k s) (hk : k.check i = (.ok (), k')) (hx : i.Executes x) :
    Post x s (fun _ s' => Agrees k' s') (fun e _ => e.category = .runtimeTrap) := by
  obtain ⟨hrun, hcontext⟩ := BodyChecker.check_eq_ok hk
  obtain ⟨⟨results, hframe⟩, hops, hm⟩ := h
  obtain ⟨c, operands, frames, mo, mf⟩ := k
  obtain ⟨c', stack'⟩ := k'
  simp only at hrun hcontext hframe hops hm
  subst hframe hops hcontext
  rcases hx.kinds with ⟨rfl, rfl⟩ | ⟨o, v, rfl, rfl, htype⟩ | ⟨o, rfl, rfl⟩
  · obtain ⟨hne, rfl⟩ := stack_of_check_drop rfl hrun
    obtain ⟨tables, segments, vs⟩ := s
    cases vs with
    | nil => exact absurd ⟨rfl, rfl⟩ hne
    | cons v vs => exact ⟨⟨results, rfl⟩, rfl, hm.of_stack vs⟩
  · obtain ⟨t, ht, -, rfl⟩ := FixedOp.stack_of_check rfl hrun
    obtain rfl := htype _ _ ht
    exact ⟨⟨results, rfl⟩, rfl, hm.of_stack _⟩
  · obtain ⟨⟨ps, rs⟩, ht, hfit, rfl⟩ := FixedOp.stack_of_check rfl hrun
    have htype : o.HasType c'.module ps rs := TableOp.type_eq_ok_iff.1 ht
    have hargs := map_type_take_of_fits hfit
    rw [List.length_reverse] at hargs
    have hholds : s.Holds c'.module ps.reverse (s.stack.drop ps.length) :=
      ⟨hm, s.stack.take ps.length, (List.take_append_drop ..).symm, hargs⟩
    refine (TableOp.post_execute htype hholds).mono ?_ (fun _ _ he => he)
    rintro - s' ⟨hm', vs, hstack, hvs⟩
    refine ⟨⟨results, rfl⟩, ?_, hm'⟩
    rw [hstack, List.map_append, ← List.map_drop, ← hvs, List.map_map]
    rfl

theorem Runs.agrees {k k' : BodyChecker} {s s' : Store} {is : List Instr} (hr : Runs k s is k' s')
    (h : s.Agrees k) : s'.Agrees k' := by
  induction hr with
  | nil => exact h
  | cons hk hx hrun _ ih => exact ih ((h.step hk (Instr.execute?_eq_some_iff.1 hx)).of_ok hrun)

/-- The store carries out the instructions up to one at which it traps. -/
def TrapsOn (k : BodyChecker) (s : Store) (is : List Instr) : Prop :=
  ∃ done i rest k' s' x, is = done ++ i :: rest ∧ Runs k s done k' s' ∧ i.execute? = some x ∧
    ∃ e s'', run x s' = (.error e, s'') ∧ e.category = .runtimeTrap

theorem TrapsOn.cons {k k' : BodyChecker} {s s' : Store} {i : Instr} {is : List Instr}
    {x : Exec Unit} (h : TrapsOn k' s' is) (hk : k.check i = (.ok (), k'))
    (hx : i.execute? = some x) (hr : run x s = (.ok (), s')) : TrapsOn k s (i :: is) := by
  obtain ⟨done, j, rest, k'', s'', y, rfl, hruns, htrap⟩ := h
  exact ⟨i :: done, j, rest, k'', s'', y, rfl, .cons hk hx hr hruns, htrap⟩

theorem Store.Agrees.runs_or_traps {k k' : BodyChecker} {s : Store} {ls : List Located}
    (h : Agrees k s) (hk : k.steps ls = .ok k') (hls : ∀ l ∈ ls, ∃ x, l.instr.Executes x) :
    (∃ s', Runs k s (ls.map (·.instr)) k' s') ∨ TrapsOn k s (ls.map (·.instr)) := by
  induction ls generalizing k s with
  | nil =>
    cases hk
    exact .inl ⟨s, .nil⟩
  | cons l ls ih =>
    obtain ⟨⟨x, hx⟩, hls⟩ := List.forall_mem_cons.1 hls
    have hx' := Instr.execute?_eq_some_iff.2 hx
    obtain ⟨k₁, hcheck, hsteps⟩ := BodyChecker.steps_cons_eq_ok hk
    have hstep := h.step hcheck hx
    rcases hr : run x s with ⟨e | _, s₁⟩
    · exact .inr ⟨[], l.instr, _, k, s, x, rfl, .nil, hx', e, s₁, hr, hstep.of_error hr⟩
    · rcases ih (hstep.of_ok hr) hsteps hls with ⟨s', hruns⟩ | htraps
      · exact .inl ⟨s', .cons hcheck hx' hr hruns⟩
      · exact .inr (htraps.cons hcheck hx' hr)

/-- A checker and a store that agree do so after every run. The constants, references and drops and
all instructions on tables can be run, and where the checker accepts some of them in a row, the
store carries them out to the end, or up to a trap. -/
theorem Store.agrees_of_runs {k : BodyChecker} {s : Store} (h : Agrees k s) :
    (∀ (i : Instr) (x : Exec Unit), i.execute? = some x ↔ i.Executes x) ∧
    (∀ is k' s', Runs k s is k' s' → Agrees k' s') ∧
    ∀ ls k', k.steps ls = .ok k' → (∀ l ∈ ls, ∃ x, l.instr.Executes x) →
      (∃ s', Runs k s (ls.map (·.instr)) k' s') ∨ TrapsOn k s (ls.map (·.instr)) :=
  ⟨fun _ _ => Instr.execute?_eq_some_iff, fun _ _ _ hr => hr.agrees h,
    fun _ _ => h.runs_or_traps⟩

def Module.oneTable : Module :=
  { Module.empty with
    tables := [⟨.funcref, ⟨2, none⟩⟩]
    segments := [⟨.funcref, .passive, [7]⟩] }

def BodyChecker.oneTable : BodyChecker := .initial .oneTable ⟨[], []⟩ [] {}

def Store.oneTable (first : Value) : Store :=
  ⟨[⟨⟨.funcref, ⟨2, none⟩⟩, #[first, .funcref none]⟩], [[.funcref (some 7)]], []⟩

theorem Store.agrees_initial : Agrees .oneTable (.oneTable (.funcref none)) := by
  refine ⟨⟨[], rfl⟩, rfl, ?_, ?_, ?_⟩
  · intro i t ht
    cases i with
    | zero => cases ht; exact ⟨_, rfl, rfl⟩
    | succ => cases ht
  · intro i g hg
    cases i with
    | zero => cases hg; exact ⟨_, rfl, by simp [Value.type, RefType.toValueType]⟩
    | succ => cases hg
  · intro t ht
    have hfilled : Table.filled ⟨.funcref, ⟨2, none⟩⟩ (.funcref none) =
        .ok ⟨⟨.funcref, ⟨2, none⟩⟩, #[.funcref none, .funcref none]⟩ := rfl
    rw [List.mem_singleton.1 ht]
    exact .filled hfilled

def initialise : List Located := Located.consecutive 0
  [.op (.fixed (.i32Const 0)), .op (.fixed (.i32Const 0)), .op (.fixed (.i32Const 1)),
    .op (.fixed (.table (.init 0 0)))]

theorem Store.agrees_after_init :
    Runs .oneTable (.oneTable (.funcref none)) (initialise.map (·.instr))
        .oneTable (.oneTable (.funcref (some 7))) ∧
      Agrees .oneTable (.oneTable (.funcref (some 7))) ∧
      BodyChecker.oneTable.steps initialise = .ok .oneTable ∧
      ((∃ s, Runs .oneTable (.oneTable (.funcref none)) (initialise.map (·.instr)) .oneTable s) ∨
        TrapsOn .oneTable (.oneTable (.funcref none)) (initialise.map (·.instr))) := by
  have hr : Runs .oneTable (.oneTable (.funcref none)) (initialise.map (·.instr))
      .oneTable (.oneTable (.funcref (some 7))) :=
    .cons rfl rfl rfl (.cons rfl rfl rfl (.cons rfl rfl rfl (.cons rfl rfl rfl .nil)))
  have hsteps : BodyChecker.oneTable.steps initialise = .ok .oneTable := rfl
  have hlisted : ∀ l ∈ initialise, ∃ x, l.instr.Executes x := by
    simp only [initialise, Located.consecutive, List.forall_mem_cons]
    exact ⟨⟨_, .i32Const 0⟩, ⟨_, .i32Const 0⟩, ⟨_, .i32Const 1⟩, ⟨_, .table (.init 0 0)⟩, by simp⟩
  obtain ⟨-, hagrees, haccepted⟩ := agrees_of_runs agrees_initial
  exact ⟨hr, hagrees _ _ _ hr, hsteps, haccepted _ _ hsteps hlisted⟩

end WasmCheck
