import WasmCheck.Table.Store
import WasmCheck.Proofs.Table.Uniform

/-!
# What an operation writes

An operation on a store makes all its checks before it writes, and it writes one thing: a changed
table in the place of the old one, an emptied segment, or a new entry behind the others. `Writes`
lists these cases. So an operation that fails has written nothing, whatever it has popped: it is
`Atomic`.
-/

namespace WasmCheck

open Attempt

inductive Table.Action where
  | get (i : UInt32)
  | set (i : UInt32) (v : Value)
  | grow (delta : UInt32) (v : Value)
  | fill (start : UInt32) (v : Value) (len : UInt32)
  | copyWithin (dst src len : UInt32)
  | copyFrom (dst : UInt32) (source : Table) (src len : UInt32)
  | init (dst : UInt32) (segment : List Value) (src len : UInt32)

namespace Table.Action

def perform : Action → Change Unit
  | get i => do
    let t ← MonadState.get
    let _ ← Attempt.ofExcept (t.get i)
  | set i v => .set i v
  | grow delta v => do let _ ← Change.grow delta v
  | fill start v len => .fill start v len
  | copyWithin dst src len => .copyWithin dst src len
  | copyFrom dst source src len => .copyFrom dst source src len
  | init dst segment src len => .init dst segment src len

def apply (a : Action) (t : Table) : Except Error Table := a.perform.final t

/-- The other tables that the operation reads. -/
@[simp] def sources : Action → List Table
  | copyFrom _ source _ _ => [source]
  | _ => []

theorem apply_get (i : UInt32) (t : Table) : (get i).apply t = (do
    let _ ← t.get i
    return t) := by
  rw [apply, perform, final_get_bind]
  cases t.get i <;> rfl

theorem apply_grow (delta : UInt32) (v : Value) (t : Table) :
    (grow delta v).apply t = (do return (← t.grow delta v).getD t) := by
  rw [apply, perform, final, run_bind, t.run_grow]
  rcases t.grow delta v with _ | _ | _ <;> rfl

theorem apply_copyWithin (dst src len : UInt32) (t : Table) :
    (copyWithin dst src len).apply t = t.copyFrom dst t src len := t.copyWithin_eq dst src len

theorem atomic_perform (a : Action) : a.perform.Atomic := by
  cases a with
  | get i => exact .get_bind fun _ => .check_bind fun _ => Change.atomic_pure ()
  | set i v => exact Change.atomic_set i v
  | grow delta v => exact (Change.atomic_grow delta v).bind_pure fun _ => ()
  | fill start v len => exact Change.atomic_fill start v len
  | copyWithin dst src len => exact Change.atomic_copyWithin dst src len
  | copyFrom dst source src len => exact Change.atomic_copyFrom dst source src len
  | init dst segment src len => exact Change.atomic_init dst segment src len

end Table.Action

namespace Store

/-- The stores differ at most in the stack. -/
structure Same (s s' : Store) : Prop where
  tables : s'.tables = s.tables
  segments : s'.segments = s.segments

/-- One operation may lead from tables and segments of `s` to those of `s'`. -/
inductive Writes (s s' : Store) : Prop where
  | nothing : Same s s' → Writes s s'
  | table {i : Nat} {t t' : Table} {a : Table.Action} : s.tables[i]? = some t →
      (∀ u ∈ a.sources, u ∈ s.tables ∨ u.Built) → a.apply t = .ok t' →
      s'.tables = s.tables.set i t' → s'.segments = s.segments → Writes s s'
  | segment {i : Nat} : s'.tables = s.tables → s'.segments = s.segments.set i [] → Writes s s'
  | newTable {type : TableType} {t : Table} : Table.ofType type = .ok t →
      s'.tables = s.tables ++ [t] → s'.segments = s.segments → Writes s s'
  | newSegment {items : List Value} : s'.tables = s.tables →
      s'.segments = s.segments ++ [items] → Writes s s'

/-! ## Parts of an operation -/

section Parts
variable {s t : Store} {i : UInt32} {α : Type} {E : Error → Store → Prop}

theorem post_table {Q : Table → Store → Prop} :
    Post (table i) s Q E ↔
      match s.tables[i.toNat]? with
      | some t => Q t s
      | none => E (.tableNotFound i) s := by
  cases h : s.tables[i.toNat]? <;> simp [Post, run, table, h]

theorem post_segment {Q : List Value → Store → Prop} :
    Post (segment i) s Q E ↔
      match s.segments[i.toNat]? with
      | some items => Q items s
      | none => E (.segmentNotFound i) s := by
  cases h : s.segments[i.toNat]? <;> simp [Post, run, segment, h]

theorem post_pop {Q : Value → Store → Prop} :
    Post pop s Q E ↔
      match s.stack with
      | v :: vs => Q v { s with stack := vs }
      | [] => E .stackUnderflow s := by
  cases h : s.stack <;> simp [Post, run, pop, h]

theorem post_popWord_cons {w : UInt32} {vs : List Value} {Q : UInt32 → Store → Prop} :
    Post popWord { s with stack := .i32 w :: vs } Q E ↔ Q w { s with stack := vs } := by
  rw [popWord, post_bind, post_pop]
  rfl

namespace Same

theorem refl (s : Store) : Same s s := ⟨rfl, rfl⟩

theorem pop (h : Same s t) {Q : Value → Store → Prop} (hQ : ∀ v t', Same s t' → Q v t') :
    Post Store.pop t Q (fun _ => Same s) := by
  rw [post_pop]
  split
  · exact hQ _ _ ⟨h.tables, h.segments⟩
  · exact h

theorem popWord (h : Same s t) {Q : UInt32 → Store → Prop} (hQ : ∀ w t', Same s t' → Q w t') :
    Post Store.popWord t Q (fun _ => Same s) := by
  refine post_bind.2 (h.pop fun v t' h' => ?_)
  rw [post_ofExcept]
  exact ⟨fun w _ => hQ w t' h', fun _ _ => h'⟩

theorem table (h : Same s t) {Q : Table → Store → Prop}
    (hQ : ∀ u, s.tables[i.toNat]? = some u → Q u t) :
    Post (Store.table i) t Q (fun _ => Same s) := by
  rw [post_table, h.tables]
  split
  · next hu => exact hQ _ hu
  · exact h

theorem segment (h : Same s t) {Q : List Value → Store → Prop}
    (hQ : ∀ items, s.segments[i.toNat]? = some items → Q items t) :
    Post (Store.segment i) t Q (fun _ => Same s) := by
  rw [post_segment, h.segments]
  split
  · next hi => exact hQ _ hi
  · exact h

theorem put (h : Same s t) (r : Except Error Table) {Q : Unit → Store → Prop}
    (hQ : ∀ u t', r = .ok u → t'.tables = s.tables.set i.toNat u → t'.segments = s.segments →
      Q () t') :
    Post (do putTable i (← Attempt.ofExcept r)) t Q (fun _ => Same s) := by
  rw [post_bind, post_ofExcept]
  refine ⟨fun u hu => ?_, fun _ _ => h⟩
  exact hQ u _ hu (congrArg (·.set i.toNat u) h.tables) h.segments

theorem onTable (h : Same s t) (a : Table.Action) (ha : ∀ u ∈ a.sources, u ∈ s.tables ∨ u.Built) :
    Post (Store.onTable i a.perform) t (fun _ => Writes s) (fun _ => Same s) := by
  rw [onTable_of_atomic a.atomic_perform]
  exact post_bind.2 (h.table fun u hu => h.put (a.apply u) fun _ _ => .table hu ha)

theorem copyTable (h : Same s t) (i dst j src len : UInt32) :
    Post (Store.copyTable i dst j src len) t (fun _ => Writes s) (fun _ => Same s) := by
  rw [Store.copyTable_eq]
  refine post_bind.2 (h.table fun u hu => ?_)
  refine post_bind.2 (h.table fun source hs => ?_)
  have ha : ∀ v ∈ (Table.Action.copyFrom dst source src len).sources, v ∈ s.tables ∨ v.Built := by
    intro v hv
    rw [List.mem_singleton.1 hv]
    exact .inl (List.mem_of_getElem? hs)
  exact h.put (u.copyFrom dst source src len) fun _ _ => .table hu ha

theorem initTable (h : Same s t) (i dst j src len : UInt32) :
    Post (Store.initTable i dst j src len) t (fun _ => Writes s) (fun _ => Same s) :=
  post_bind.2 (h.segment fun items _ => h.onTable (.init dst items src len) (by simp))

theorem dropSegment (h : Same s t) (i : UInt32) :
    Post (Store.dropSegment i) t (fun _ => Writes s) (fun _ => Same s) :=
  post_bind.2 (h.segment fun _ _ => .segment h.tables (congrArg (·.set i.toNat []) h.segments))

theorem addTable (h : Same s t) (type : TableType) :
    Post (Store.addTable type) t (fun _ => Writes s) (fun _ => Same s) := by
  rw [Store.addTable, post_bind, post_ofExcept]
  refine ⟨fun u hu => ?_, fun _ _ => h⟩
  exact .newTable hu (congrArg (· ++ [u]) h.tables) h.segments

end Same

end Parts

end Store

/-! ## Table instructions -/

open Store in
/-- A table instruction pops, checks, and then writes at most one thing; if it fails, it has only
popped. -/
theorem TableOp.post_writes {s t : Store} (h : Same s t) (o : TableOp) :
    Post o.execute t (fun _ => Writes s) (fun _ => Same s) := by
  cases o with
  | get i =>
    refine post_bind.2 (h.popWord fun index t h => ?_)
    refine post_bind.2 (h.table fun u _ => ?_)
    rw [post_bind, post_ofExcept]
    exact ⟨fun _ _ => .nothing ⟨h.tables, h.segments⟩, fun _ _ => h⟩
  | set i =>
    refine post_bind.2 (h.pop fun v t h => ?_)
    refine post_bind.2 (h.popWord fun index t h => ?_)
    exact h.onTable (.set index v) (by simp)
  | size i => exact post_bind.2 (h.table fun _ _ => .nothing ⟨h.tables, h.segments⟩)
  | grow i =>
    refine post_bind.2 (h.popWord fun delta t h => ?_)
    refine post_bind.2 (h.pop fun v t h => ?_)
    rw [onTable_grow]
    refine post_bind.2 (post_bind.2 (h.table fun u hu => ?_))
    rw [post_bind, post_ofExcept]
    refine ⟨fun r hr => ?_, fun _ _ => h⟩
    cases r with
    | none => exact .nothing ⟨h.tables, h.segments⟩
    | some u' =>
      have ha : (Table.Action.grow delta v).apply u = .ok u' := by
        rw [Table.Action.apply_grow, hr]
        rfl
      exact .table hu (by simp) ha
        (congrArg (·.set i.toNat u') h.tables) h.segments
  | fill i =>
    refine post_bind.2 (h.popWord fun len t h => ?_)
    refine post_bind.2 (h.pop fun v t h => ?_)
    refine post_bind.2 (h.popWord fun start t h => ?_)
    exact h.onTable (.fill start v len) (by simp)
  | copy i j =>
    refine post_bind.2 (h.popWord fun len t h => ?_)
    refine post_bind.2 (h.popWord fun src t h => ?_)
    refine post_bind.2 (h.popWord fun dst t h => ?_)
    exact h.copyTable i dst j src len
  | init i j =>
    refine post_bind.2 (h.popWord fun len t h => ?_)
    refine post_bind.2 (h.popWord fun src t h => ?_)
    refine post_bind.2 (h.popWord fun dst t h => ?_)
    exact h.initTable i dst j src len
  | dropSegment i => exact h.dropSegment i

/-! ## Failure -/

namespace Store

/-- If the attempt fails, tables and segments are as they were. -/
def Atomic {α : Type} (x : Exec α) (s : Store) : Prop :=
  ∀ e s', run x s = (.error e, s') → Same s s'

variable {α : Type} {s : Store} {Q : α → Store → Prop}

theorem atomic_of_post {x : Exec α} (h : Post x s Q (fun _ => Same s)) : Atomic x s :=
  fun _ _ hr => h.of_error hr

/-- What a change leaves in its table when it fails, it leaves in the store. -/
theorem atomic_onTable {x : Change α} (h : x.Atomic) (i : UInt32) (s : Store) :
    Atomic (onTable i x) s := by
  intro e s' hr
  cases ht : s.tables[i.toNat]? with
  | none =>
    have hnone : run (onTable i x) s = (.error (.tableNotFound i), s) := by
      rw [onTable, run_bind, run_table, ht]
    rw [hnone] at hr
    cases hr
    exact .refl s
  | some t =>
    rw [run_onTable ht] at hr
    obtain ⟨he, rfl⟩ := Prod.mk.inj hr
    have hx : run x t = (.error e, (run x t).2) := Prod.ext he rfl
    rw [h t e _ hx, putTable_self ht]
    exact .refl s

theorem invoke_error {o : TableOp} {args : List Value} {d : Diagnostic} {s' : Store}
    (h : o.invoke args s = (.error d, s')) : s' = { s with stack := [] } := by
  have hw := o.post_writes (s := s) (t := { s with stack := args.reverse }) ⟨rfl, rfl⟩
  unfold TableOp.invoke at h
  split at h
  · cases h
  · next e s₁ hr =>
    obtain ⟨htables, hsegments⟩ : Same s s₁ := hw.of_error hr
    cases h
    rw [htables, hsegments]

/-- An operation that fails leaves tables and segments alone, and a change that fails leaves its
table alone. An invocation that fails leaves an empty stack, and an instruction that is none on
tables leaves all as it is. -/
theorem atomic_operations (s : Store) :
    (∀ (o : TableOp) (args : List Value) (d : Diagnostic) (s' : Store),
      o.invoke args s = (.error d, s') → s' = { s with stack := [] }) ∧
    (∀ o : TableOp, Atomic o.execute s) ∧
    (∀ i dst j src len : UInt32, Atomic (copyTable i dst j src len) s) ∧
    (∀ i dst j src len : UInt32, Atomic (initTable i dst j src len) s) ∧
    (∀ i : UInt32, Atomic (Store.dropSegment i) s) ∧
    (∀ type : TableType, Atomic (addTable type) s) ∧
    ((∀ i v, (Change.set i v).Atomic) ∧ (∀ delta v, (Change.grow delta v).Atomic) ∧
      (∀ start v len, (Change.fill start v len).Atomic) ∧
      (∀ dst src len, (Change.copyWithin dst src len).Atomic) ∧
      (∀ dst source src len, (Change.copyFrom dst source src len).Atomic) ∧
      ∀ dst items src len, (Change.init dst items src len).Atomic) ∧
    (∀ (α : Type) (x : Change α) (i : UInt32), x.Atomic → Atomic (onTable i x) s) ∧
    ∀ (i : Instr) (args : List Value), (∀ o, i ≠ .op (.fixed (.table o))) →
      ∃ d, i.invoke args s = (.error d, s) := by
  have h := Same.refl s
  refine ⟨fun o args d s' => invoke_error, fun o => ?_, fun i dst j src len => ?_,
    fun i dst j src len => ?_, fun i => ?_, fun type => ?_, ?_, fun α x i hx => ?_,
    fun i args hi => ?_⟩
  · exact atomic_of_post (o.post_writes h)
  · exact atomic_of_post (h.copyTable i dst j src len)
  · exact atomic_of_post (h.initTable i dst j src len)
  · exact atomic_of_post (h.dropSegment i)
  · exact atomic_of_post (h.addTable type)
  · exact ⟨Change.atomic_set, Change.atomic_grow, Change.atomic_fill, Change.atomic_copyWithin,
      Change.atomic_copyFrom, Change.atomic_init⟩
  · exact atomic_onTable hx i s
  · rw [Instr.invoke, Instr.tableOp?_eq_none_iff.2 hi]
    exact ⟨_, rfl⟩

/-- A table of two functions, and a segment whose second item is none. -/
def mixed : Store :=
  ⟨[⟨⟨.funcref, ⟨2, none⟩⟩, #[.funcref none, .funcref none]⟩],
    [[.funcref (some 7), .externref (some 1)]], [.i32 5]⟩

/-- The first item could be written, and is not. -/
theorem atomic_init_mixed :
    (∃ d s', (TableOp.init 0 0).invoke [.i32 0, .i32 0, .i32 2] mixed = (.error d, s') ∧
      s' = { mixed with stack := [] }) ∧
    ∃ e s', run (onTable 0 (.init 0 [.funcref (some 7), .externref (some 1)] 0 2)) mixed =
      (.error e, s') ∧ Same mixed s' := by
  obtain ⟨hinvoke, -, -, -, -, -, ⟨-, -, -, -, -, hinit⟩, hon, -⟩ := atomic_operations mixed
  have h : (TableOp.init 0 0).invoke [.i32 0, .i32 0, .i32 2] mixed =
      (.error (.unlocated (.elementType .funcref .externref)),
        ⟨mixed.tables, mixed.segments, []⟩) := rfl
  have h' : run (onTable 0 (.init 0 [.funcref (some 7), .externref (some 1)] 0 2)) mixed =
      (.error (.elementType .funcref .externref), mixed) := rfl
  exact ⟨⟨_, _, h, hinvoke _ _ _ _ h⟩, _, _, h', hon _ _ 0 (hinit _ _ _ _) _ _ h'⟩

/-- A change that writes before it has made its checks is not atomic. -/
example : ¬Change.Atomic (do Change.put #[]; fail .stackUnderflow : Change Unit) := fun h =>
  absurd (h ⟨⟨.funcref, ⟨0, none⟩⟩, #[.funcref none]⟩ _ _ rfl) (by decide)

end Store

end WasmCheck
