import WasmCheck.Table.Basic
import WasmCheck.Attempt

/-!
# Changing tables

Writing goes by index; filling, copying and initialising go by ranges. A change runs on the table in
place, and whatever it has written by the time it fails stays written. But all of them make their
checks first and put the new elements last, so that a change is `Atomic`. It is determined then by
the table that it ends with, which `Table.set` and the others give.
-/

namespace WasmCheck

open Attempt

abbrev Change := Attempt Table

namespace Change

def put (elements : Array Value) : Change Unit := modify fun t => { t with elements }

def set (i : UInt32) (v : Value) : Change Unit := do
  let t ← get
  Attempt.ofExcept (Table.checkElement t.type.element v)
  if h : i.toNat < t.elements.size then
    put (t.elements.set i.toNat v h)
  else
    fail (.tableAccess "table.set" i t.size)

/-- Appends `delta` elements and gives the old size, or nothing if the table would outgrow its
bound. -/
def grow (delta : UInt32) (init : Value) : Change (Option UInt32) := do
  let t ← get
  Attempt.ofExcept (Table.checkElement t.type.element init)
  if t.size.toNat + delta.toNat ≤ t.bound.toNat then
    put (t.elements ++ Array.replicate delta.toNat init)
    return some t.size
  else
    return none

def fill (start : UInt32) (v : Value) (len : UInt32) : Change Unit := do
  let t ← get
  Attempt.ofExcept (Table.checkElement t.type.element v)
  Attempt.ofExcept (Table.checkRange "table.fill" start len t.elements.size)
  put (overwrite t.elements start.toNat (Array.replicate len.toNat v))

def copyFrom (dst : UInt32) (source : Table) (src len : UInt32) : Change Unit := do
  let t ← get
  Attempt.ofExcept (Table.checkSameType source t)
  Attempt.ofExcept (Table.checkRange "table.copy" src len source.elements.size)
  Attempt.ofExcept (Table.checkRange "table.copy" dst len t.elements.size)
  put (overwrite t.elements dst.toNat
    (source.elements.extract src.toNat (src.toNat + len.toNat)))

/-- Copies inside the table. Where the ranges overlap, the old elements are copied. -/
def copyWithin (dst src len : UInt32) : Change Unit := do
  let t ← get
  Attempt.ofExcept (Table.checkRange "table.copy" src len t.elements.size)
  Attempt.ofExcept (Table.checkRange "table.copy" dst len t.elements.size)
  put (overwrite t.elements dst.toNat (t.elements.extract src.toNat (src.toNat + len.toNat)))

def init (dst : UInt32) (segment : List Value) (src len : UInt32) : Change Unit := do
  Attempt.ofExcept (Table.checkRange "table.init" src len segment.length)
  let t ← get
  Attempt.ofExcept (Table.checkRange "table.init" dst len t.elements.size)
  let items := (segment.drop src.toNat).take len.toNat
  Attempt.ofExcept (Table.checkElements t.type.element items)
  put (overwrite t.elements dst.toNat items.toArray)

/-! ## Failure -/

section Atomic
variable {α β : Type}

/-- A change that fails leaves the table as it was. -/
def Atomic (x : Change α) : Prop := ∀ t e t', run x t = (.error e, t') → t' = t

theorem atomic_put (elements : Array Value) : Atomic (put elements) := by
  intro t e t' h
  cases h

theorem atomic_pure (a : α) : Atomic (pure a) := by
  intro t e t' h
  cases h

theorem atomic_fail (e : Error) : Atomic (fail e : Change α) := by
  intro t e' t' h
  cases h
  rfl

theorem Atomic.get_bind {f : Table → Change α} (h : ∀ t, Atomic (f t)) : Atomic (get >>= f) :=
  fun t e t' hr => h t t e t' hr

/-- What has only been checked has not been written. -/
theorem Atomic.check_bind {x : Except Error β} {f : β → Change α} (h : ∀ b, Atomic (f b)) :
    Atomic (Attempt.ofExcept x >>= f) := by
  intro t e t' hr
  cases x with
  | error e' =>
    cases hr
    rfl
  | ok b => exact h b t e t' hr

theorem Atomic.bind_pure {x : Change α} (h : Atomic x) (f : α → β) :
    Atomic (x >>= fun a => pure (f a)) := by
  intro t e t' hr
  rw [run_bind] at hr
  rcases hx : run x t with ⟨e' | a, u⟩
  · rw [hx] at hr
    cases hr
    exact h t _ _ hx
  · rw [hx] at hr
    cases hr

theorem atomic_set (i : UInt32) (v : Value) : Atomic (set i v) := by
  refine .get_bind fun t => .check_bind fun _ => ?_
  split
  · exact atomic_put _
  · exact atomic_fail _

theorem atomic_grow (delta : UInt32) (v : Value) : Atomic (grow delta v) := by
  refine .get_bind fun t => .check_bind fun _ => ?_
  split
  · exact (atomic_put _).bind_pure _
  · exact atomic_pure _

theorem atomic_fill (start : UInt32) (v : Value) (len : UInt32) : Atomic (fill start v len) :=
  .get_bind fun _ => .check_bind fun _ => .check_bind fun _ => atomic_put _

theorem atomic_copyFrom (dst : UInt32) (source : Table) (src len : UInt32) :
    Atomic (copyFrom dst source src len) :=
  .get_bind fun _ => .check_bind fun _ => .check_bind fun _ => .check_bind fun _ => atomic_put _

theorem atomic_copyWithin (dst src len : UInt32) : Atomic (copyWithin dst src len) :=
  .get_bind fun _ => .check_bind fun _ => .check_bind fun _ => atomic_put _

theorem atomic_init (dst : UInt32) (segment : List Value) (src len : UInt32) :
    Atomic (init dst segment src len) :=
  .check_bind fun _ => .get_bind fun _ => .check_bind fun _ => .check_bind fun _ => atomic_put _

/-- An atomic change is given by the tables that it ends with. -/
theorem Atomic.run_eq {x : Change Unit} (h : Atomic x) (t : Table) :
    run x t = match x.final t with
      | .ok t' => (.ok (), t')
      | .error e => (.error e, t) := by
  unfold final
  rcases hr : run x t with ⟨e | _, t'⟩
  · rw [h t e t' hr]
  · rfl

end Atomic

end Change

/-! ## The changed table -/

namespace Table

def set (t : Table) (i : UInt32) (v : Value) : Except Error Table := (Change.set i v).final t

def grow (t : Table) (delta : UInt32) (init : Value) : Except Error (Option Table) :=
  match run (Change.grow delta init) t with
  | (.ok size, t') => .ok (size.map fun _ => t')
  | (.error e, _) => .error e

def fill (t : Table) (start : UInt32) (v : Value) (len : UInt32) : Except Error Table :=
  (Change.fill start v len).final t

def copyFrom (t : Table) (dst : UInt32) (source : Table) (src len : UInt32) :
    Except Error Table :=
  (Change.copyFrom dst source src len).final t

def copyWithin (t : Table) (dst src len : UInt32) : Except Error Table :=
  (Change.copyWithin dst src len).final t

def init (t : Table) (dst : UInt32) (segment : List Value) (src len : UInt32) :
    Except Error Table :=
  (Change.init dst segment src len).final t

theorem set_eq (t : Table) (i : UInt32) (v : Value) :
    t.set i v = (do
      checkElement t.type.element v
      if h : i.toNat < t.elements.size then
        return { t with elements := t.elements.set i.toNat v h }
      else
        throw (.tableAccess "table.set" i t.size)) := by
  rw [set, Change.set, final_get_bind, final_ofExcept_bind]
  congr 1
  funext _
  split <;> rfl

theorem grow_eq (t : Table) (delta : UInt32) (init : Value) :
    t.grow delta init = (do
      checkElement t.type.element init
      if t.size.toNat + delta.toNat ≤ t.bound.toNat then
        return some { t with elements := t.elements ++ Array.replicate delta.toNat init }
      else
        return none) := by
  rw [grow, Change.grow, run_get_bind]
  cases checkElement t.type.element init with
  | error e => rfl
  | ok _ =>
    by_cases hb : t.size.toNat + delta.toNat ≤ t.bound.toNat
    · simp only [if_pos hb]
      rfl
    · simp only [if_neg hb]
      rfl

/-- Growing leaves the table as it was also where it is refused. -/
theorem run_grow (t : Table) (delta : UInt32) (init : Value) :
    run (Change.grow delta init) t = match t.grow delta init with
      | .ok (some t') => (.ok (some t.size), t')
      | .ok none => (.ok none, t)
      | .error e => (.error e, t) := by
  rw [grow_eq, Change.grow, run_get_bind]
  cases checkElement t.type.element init with
  | error e => rfl
  | ok _ =>
    by_cases hb : t.size.toNat + delta.toNat ≤ t.bound.toNat
    · simp only [if_pos hb]
      rfl
    · simp only [if_neg hb]
      rfl

theorem fill_eq (t : Table) (start : UInt32) (v : Value) (len : UInt32) :
    t.fill start v len = (do
      checkElement t.type.element v
      checkRange "table.fill" start len t.elements.size
      return { t with
        elements := overwrite t.elements start.toNat (Array.replicate len.toNat v) }) := by
  simp only [fill, Change.fill, final_get_bind, final_ofExcept_bind]
  rfl

theorem copyFrom_eq (t : Table) (dst : UInt32) (source : Table) (src len : UInt32) :
    t.copyFrom dst source src len = (do
      checkSameType source t
      checkRange "table.copy" src len source.elements.size
      checkRange "table.copy" dst len t.elements.size
      return { t with
        elements := overwrite t.elements dst.toNat
          (source.elements.extract src.toNat (src.toNat + len.toNat)) }) := by
  simp only [copyFrom, Change.copyFrom, final_get_bind, final_ofExcept_bind]
  rfl

/-- A table is of its own type, so it may as well be the source of a copy. -/
theorem copyWithin_eq (t : Table) (dst src len : UInt32) :
    t.copyWithin dst src len = t.copyFrom dst t src len := by
  have hself : checkSameType t t = .ok () := if_pos rfl
  rw [copyFrom_eq, hself]
  simp only [copyWithin, Change.copyWithin, final_get_bind, final_ofExcept_bind]
  rfl

theorem init_eq (t : Table) (dst : UInt32) (segment : List Value) (src len : UInt32) :
    t.init dst segment src len = (do
      checkRange "table.init" src len segment.length
      checkRange "table.init" dst len t.elements.size
      checkElements t.type.element ((segment.drop src.toNat).take len.toNat)
      return { t with
        elements := overwrite t.elements dst.toNat
          ((segment.drop src.toNat).take len.toNat).toArray }) := by
  simp only [init, Change.init, final_get_bind, final_ofExcept_bind]
  rfl

end Table

end WasmCheck
