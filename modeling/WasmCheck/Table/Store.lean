import WasmCheck.Table.Change
import WasmCheck.Diagnostic
import WasmCheck.Instr.Basic

/-!
# The store

Tables, element segments, and the stack of values on which the table instructions work. An
instruction pops its operands, the last one first, before it looks at a table. A failure leaves
tables and segments alone; the operands that were popped are gone.
-/

namespace WasmCheck

structure Store where
  tables : List Table
  segments : List (List Value)
  /-- The top of the stack comes first. -/
  stack : List Value
deriving DecidableEq, Repr

abbrev Exec := Attempt Store

namespace Store

def empty : Store := ⟨[], [], []⟩

/-! ## Tables and segments -/

def table (i : UInt32) : Exec Table := fun s =>
  match s.tables[i.toNat]? with
  | some t => (.ok t, s)
  | none => (.error (.tableNotFound i), s)

def segment (i : UInt32) : Exec (List Value) := fun s =>
  match s.segments[i.toNat]? with
  | some items => (.ok items, s)
  | none => (.error (.segmentNotFound i), s)

def putTable (i : UInt32) (t : Table) : Exec Unit :=
  modify fun s => { s with tables := s.tables.set i.toNat t }

/-- Runs a change on a table in its place. What it has written stays, also if it fails. -/
def onTable {α : Type} (i : UInt32) (x : Change α) : Exec α := do
  let t ← table i
  let (r, t') := Attempt.run x t
  putTable i t'
  Attempt.ofExcept r

/-- Puts the changed table in the place of a table, if the change succeeds. -/
def changeTable (i : UInt32) (change : Table → Except Error Table) : Exec Unit := do
  let t ← table i
  putTable i (← Attempt.ofExcept (change t))

def addTable (type : TableType) : Exec UInt32 := do
  let t ← Attempt.ofExcept (Table.ofType type)
  modifyGet fun s => (UInt32.ofNatClamp s.tables.length, { s with tables := s.tables ++ [t] })

def addSegment (items : List Value) : Exec UInt32 :=
  modifyGet fun s =>
    (UInt32.ofNatClamp s.segments.length, { s with segments := s.segments ++ [items] })

/-- Two tables at different places, the first one together with a way to replace it. The list is
split in front of the later one, so that each part holds one of them. -/
def borrow (dst src : Nat) (tables : List Table) : Option ((Table → List Table) × Table × Table) :=
  if dst < src then do
    let (low, high) := tables.splitAt src
    return (fun t => low.set dst t ++ high, ← low[dst]?, ← high[0]?)
  else do
    let (low, high) := tables.splitAt dst
    return (fun t => low ++ high.set 0 t, ← high[0]?, ← low[src]?)

def copyTable (dstTable dst srcTable src len : UInt32) : Exec Unit := do
  if dstTable = srcTable then
    onTable dstTable (.copyWithin dst src len)
  else
    let _ ← table dstTable
    let _ ← table srcTable
    let s ← get
    match borrow dstTable.toNat srcTable.toNat s.tables with
    | some (replace, target, source) =>
      let (r, t) := Attempt.run (Change.copyFrom dst source src len) target
      set { s with tables := replace t }
      Attempt.ofExcept r
    | none => Attempt.fail (.tableNotFound dstTable)

theorem run_table (i : UInt32) (s : Store) :
    Attempt.run (table i) s =
      match s.tables[i.toNat]? with
      | some t => (.ok t, s)
      | none => (.error (.tableNotFound i), s) := rfl

theorem run_table_of_some {i : UInt32} {t : Table} {s : Store} (ht : s.tables[i.toNat]? = some t) :
    Attempt.run (table i) s = (.ok t, s) := by
  rw [run_table, ht]

theorem putTable_self {i : UInt32} {t : Table} {s : Store} (ht : s.tables[i.toNat]? = some t) :
    { s with tables := s.tables.set i.toNat t } = s := by
  obtain ⟨hi, rfl⟩ := List.getElem?_eq_some_iff.1 ht
  rw [List.set_getElem_self hi]

theorem run_onTable {α : Type} {i : UInt32} {t : Table} {s : Store}
    (ht : s.tables[i.toNat]? = some t) (x : Change α) :
    Attempt.run (onTable i x) s = ((Attempt.run x t).1,
      { s with tables := s.tables.set i.toNat (Attempt.run x t).2 }) := by
  rw [onTable, Attempt.run_bind_of_ok (run_table_of_some ht)]
  rcases Attempt.run x t with ⟨_ | _, t'⟩ <;> rfl

theorem run_changeTable {i : UInt32} {t : Table} {s : Store} (ht : s.tables[i.toNat]? = some t)
    (f : Table → Except Error Table) :
    Attempt.run (changeTable i f) s =
      match f t with
      | .ok t' => (.ok (), { s with tables := s.tables.set i.toNat t' })
      | .error e => (.error e, s) := by
  rw [changeTable, Attempt.run_bind_of_ok (run_table_of_some ht)]
  cases f t <;> rfl

/-- An atomic change is made if it succeeds, and otherwise nothing is. -/
theorem onTable_of_atomic {x : Change Unit} (h : x.Atomic) (i : UInt32) :
    onTable i x = changeTable i x.final := by
  refine Attempt.ext fun s => ?_
  cases ht : s.tables[i.toNat]? with
  | none => simp [onTable, changeTable, Attempt.run_bind, run_table, ht]
  | some t =>
    rw [run_onTable ht, run_changeTable ht, h.run_eq]
    cases x.final t with
    | ok t' => rfl
    | error e => exact Prod.ext rfl (putTable_self ht)

theorem onTable_grow (i delta : UInt32) (v : Value) :
    onTable i (.grow delta v) = (do
      let t ← table i
      match ← Attempt.ofExcept (t.grow delta v) with
      | some grown =>
        putTable i grown
        return some t.size
      | none => return none) := by
  refine Attempt.ext fun s => ?_
  cases ht : s.tables[i.toNat]? with
  | none => simp [onTable, Attempt.run_bind, run_table, ht]
  | some t =>
    rw [run_onTable ht, Attempt.run_bind_of_ok (run_table_of_some ht), t.run_grow]
    rcases t.grow delta v with e | _ | t'
    · exact Prod.ext rfl (putTable_self ht)
    · exact Prod.ext rfl (putTable_self ht)
    · rfl

theorem borrow_eq {dst src : Nat} {tables : List Table} {t source : Table} (hne : dst ≠ src)
    (ht : tables[dst]? = some t) (hs : tables[src]? = some source) :
    borrow dst src tables = some (tables.set dst, t, source) := by
  have hdst := (List.getElem?_eq_some_iff.1 ht).1
  have hsrc := (List.getElem?_eq_some_iff.1 hs).1
  unfold borrow
  split
  · next h =>
    have hput (u : Table) : (tables.take src).set dst u ++ tables.drop src = tables.set dst u := by
      rw [← List.set_append_left _ _ (by rw [List.length_take]; omega), List.take_append_drop]
    simp [List.splitAt_eq, List.getElem?_take_of_lt h, ht, hs, hput]
  · next h =>
    have hput (u : Table) : tables.take dst ++ (tables.drop dst).set 0 u = tables.set dst u := by
      have hlen : (tables.take dst).length = dst := by rw [List.length_take]; omega
      have hset := List.set_append_right (t := tables.drop dst) dst u (Nat.le_of_eq hlen)
      rw [List.take_append_drop, hlen, Nat.sub_self] at hset
      exact hset.symm
    have hlt : src < dst := by omega
    simp [List.splitAt_eq, List.getElem?_take_of_lt hlt, ht, hs, hput]

/-- The source is always the table as it was, also where it is the one written to. -/
theorem copyTable_eq (dstTable dst srcTable src len : UInt32) :
    copyTable dstTable dst srcTable src len = (do
      let t ← table dstTable
      let source ← table srcTable
      putTable dstTable (← Attempt.ofExcept (t.copyFrom dst source src len))) := by
  refine Attempt.ext fun s => ?_
  unfold copyTable
  split
  · next h =>
    subst h
    have hself (t : Table) : (Change.copyWithin dst src len).final t = t.copyFrom dst t src len :=
      t.copyWithin_eq dst src len
    rw [onTable_of_atomic (Change.atomic_copyWithin dst src len)]
    cases ht : s.tables[dstTable.toNat]? with
    | none => simp [changeTable, Attempt.run_bind, run_table, ht]
    | some t => simp [changeTable, Attempt.run_bind, run_table, ht, hself]
  · next h =>
    have hne : dstTable.toNat ≠ srcTable.toNat := fun he => h (UInt32.toNat_inj.1 he)
    cases ht : s.tables[dstTable.toNat]? with
    | none => simp [Attempt.run_bind, run_table, ht]
    | some t =>
      cases hs : s.tables[srcTable.toNat]? with
      | none => simp [Attempt.run_bind, run_table, ht, hs]
      | some source =>
        simp only [Attempt.run_bind_of_ok (run_table_of_some ht),
          Attempt.run_bind_of_ok (run_table_of_some hs), Attempt.run_get_bind,
          borrow_eq hne ht hs, (Change.atomic_copyFrom dst source src len).run_eq]
        unfold Table.copyFrom
        cases (Change.copyFrom dst source src len).final t with
        | ok t' => rfl
        | error e => exact Prod.ext rfl (putTable_self ht)

def initTable (i dst segmentIndex src len : UInt32) : Exec Unit := do
  let items ← segment segmentIndex
  onTable i (.init dst items src len)

def dropSegment (i : UInt32) : Exec Unit := do
  let _ ← segment i
  modify fun s => { s with segments := s.segments.set i.toNat [] }

/-! ## The stack -/

def push (v : Value) : Exec Unit := modify fun s => { s with stack := v :: s.stack }

def pop : Exec Value := fun s =>
  match s.stack with
  | v :: vs => (.ok v, { s with stack := vs })
  | [] => (.error .stackUnderflow, s)

def popWord : Exec UInt32 := do Attempt.ofExcept (← pop).asU32

end Store

open Store

def TableOp.execute : TableOp → Exec Unit
  | get i => do
    let index ← popWord
    let t ← table i
    push (← Attempt.ofExcept (t.get index))
  | set i => do
    let v ← pop
    let index ← popWord
    onTable i (.set index v)
  | size i => do
    let t ← table i
    push (.i32 t.size)
  | grow i => do
    let delta ← popWord
    let v ← pop
    match ← onTable i (.grow delta v) with
    | some old => push (.i32 old)
    | none => push (.i32 0xFFFFFFFF)
  | fill i => do
    let len ← popWord
    let v ← pop
    let start ← popWord
    onTable i (.fill start v len)
  | copy i j => do
    let len ← popWord
    let src ← popWord
    let dst ← popWord
    copyTable i dst j src len
  | init i j => do
    let len ← popWord
    let src ← popWord
    let dst ← popWord
    initTable i dst j src len
  | dropSegment i => Store.dropSegment i

/-- Runs a table instruction on the given operands alone and gives what it leaves. The stack is
empty afterwards, whatever happened. -/
def TableOp.invoke (o : TableOp) (args : List Value) (s : Store) :
    Except Diagnostic (List Value) × Store :=
  match o.execute.run { s with stack := args.reverse } with
  | (.ok (), s) => (.ok s.stack.reverse, { s with stack := [] })
  | (.error e, s) => (.error (.unlocated e), { s with stack := [] })

def Instr.invoke (i : Instr) (args : List Value) (s : Store) :
    Except Diagnostic (List Value) × Store :=
  match i.tableOp? with
  | some o => o.invoke args s
  | none => (.error (.unlocated (.notTableInstr i.name)), s)

end WasmCheck
