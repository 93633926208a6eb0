import WasmCheck.Proofs.Table.Bulk
import WasmCheck.Proofs.Table.Footprint
import WasmCheck.Proofs.Table.History
import Mathlib.Algebra.Ring.Int.Defs
import Mathlib.Algebra.Ring.Nat

/-!
# Growing

Growing a table answers with the size it had, or with minus one if it would outgrow its bound. Both
are an `i32`, so the answer is clear only because no table that has come about is large enough for
its size to turn negative. The number of new elements is a word without a sign: what stands for a
negative number is far beyond any bound.
-/

namespace WasmCheck

open Attempt

/-! ## Numbers with a sign -/

/-- The value that stands for a number with a sign. -/
def Value.ofInt32 (n : Int32) : Value := .i32 n.toUInt32

theorem Int32.toNat_word (n : Int32) : n.toUInt32.toNat = (n.toInt % 2 ^ 32).toNat := by
  have h : (BitVec.ofInt 32 n.toBitVec.toInt).toNat = _ := BitVec.toNat_ofInt _
  rwa [BitVec.ofInt_toInt] at h

theorem UInt32.toInt_signed {n : UInt32} (h : n.toNat < 2 ^ 31) : n.toInt32.toInt = n.toNat := by
  have h' : 2 * n.toBitVec.toNat < 2 ^ 32 := by
    have : n.toBitVec.toNat < 2 ^ 31 := h
    omega
  exact BitVec.toInt_eq_toNat_of_lt h'

theorem Int32.le_toNat_word {n : Int32} (h : n < 0) : 2 ^ 31 ≤ n.toUInt32.toNat := by
  have hneg : n.toInt < 0 := Int32.lt_iff_toInt_lt.1 h
  have hle : -2 ^ 31 ≤ n.toInt := n.minValue_le_toInt
  rw [Int32.toNat_word]
  omega

namespace Table

/-- The second table is the first one with new elements behind the old ones. -/
structure Extended (t t' : Table) (count : Nat) (v : Value) : Prop where
  type : t'.type = t.type
  size : t'.elements.size = t.elements.size + count
  old : ∀ k < t.elements.size, t'.elements[k]? = t.elements[k]?
  new : ∀ k < count, t'.elements[t.elements.size + k]? = some v

variable {t : Table} {v : Value} {delta : UInt32}

theorem extended_append (t : Table) (count : Nat) (v : Value) :
    t.Extended { t with elements := t.elements ++ Array.replicate count v } count v where
  type := rfl
  size := by rw [Array.size_append, Array.size_replicate]
  old k hk := Array.getElem?_append_left hk
  new k hk := by
    rw [Array.getElem?_append_right (Nat.le_add_right ..), Nat.add_sub_cancel_left,
      Array.getElem?_replicate, if_pos hk]

theorem grow_of_typed (hv : v.type = t.type.element.toValueType)
    (hs : t.size.toNat = t.elements.size) :
    t.grow delta v = .ok (if t.bound.toNat < t.elements.size + delta.toNat then none
      else some { t with elements := t.elements ++ Array.replicate delta.toNat v }) := by
  rw [grow_eq, checkElement_eq_ok_iff.2 hv, hs]
  show (if _ then _ else _) = _
  split
  · next h => rw [if_neg (Nat.not_lt.2 h)]; rfl
  · next h => rw [if_pos (Nat.lt_of_not_le h)]; rfl

end Table

namespace Store

structure Extended (s s' : Store) (i : UInt32) (count : Nat) (v : Value) : Prop where
  changed : ∃ t t', s.tables[i.toNat]? = some t ∧ s'.tables[i.toNat]? = some t' ∧
    t.Extended t' count v
  others : ∀ j, j ≠ i.toNat → s'.tables[j]? = s.tables[j]?
  segments : s'.segments = s.segments

section
variable {s : Store} {i delta : UInt32} {t : Table} {v : Value}

theorem extended_set {t' : Table} {count : Nat} (ht : s.tables[i.toNat]? = some t)
    (h : t.Extended t' count v) (vs : List Value) :
    s.Extended ⟨s.tables.set i.toNat t', s.segments, vs⟩ i count v where
  changed := ⟨t, t', ht, List.getElem?_set_self (List.getElem?_eq_some_iff.1 ht).1, h⟩
  others _ hj := List.getElem?_set_ne hj.symm
  segments := rfl

theorem run_grow (ht : s.tables[i.toNat]? = some t) (delta : UInt32) (v : Value) :
    run (TableOp.grow i).execute { s with stack := [.i32 delta, v] } =
      match t.grow delta v with
      | .ok none => (.ok (), { s with stack := [.i32 0xFFFFFFFF] })
      | .ok (some t') => (.ok (), ⟨s.tables.set i.toNat t', s.segments, [.i32 t.size]⟩)
      | .error e => (.error e, { s with stack := [] }) := by
  have hdelta : run popWord { s with stack := [.i32 delta, v] } =
      (.ok delta, { s with stack := [v] }) := rfl
  have hv : run pop { s with stack := [v] } = (.ok v, { s with stack := [] }) := rfl
  have htable : run (table i) { s with stack := [] } = (.ok t, { s with stack := [] }) :=
    run_table_of_some ht
  rw [TableOp.execute, run_bind_of_ok hdelta, run_bind_of_ok hv, onTable_grow, run_bind,
    run_bind_of_ok htable, run_bind, run_ofExcept]
  rcases t.grow delta v with _ | _ | _ <;> rfl

theorem invoke_grow_of_lt (ht : s.tables[i.toNat]? = some t)
    (hv : v.type = t.type.element.toValueType) (hs : t.size.toNat = t.elements.size)
    (h : t.bound.toNat < t.elements.size + delta.toNat) :
    (TableOp.grow i).invoke [v, .i32 delta] s = (.ok [.ofInt32 (-1)], { s with stack := [] }) := by
  refine TableOp.invoke_of_ok (t := { s with stack := [.i32 0xFFFFFFFF] }) ?_
  have hrun := run_grow ht delta v
  rwa [Table.grow_of_typed hv hs, if_pos h] at hrun

theorem invoke_grow_of_le (ht : s.tables[i.toNat]? = some t)
    (hv : v.type = t.type.element.toValueType) (hs : t.size.toNat = t.elements.size)
    (h : t.elements.size + delta.toNat ≤ t.bound.toNat) :
    ∃ s', (TableOp.grow i).invoke [v, .i32 delta] s = (.ok [.ofInt32 t.size.toInt32], s') ∧
      s.Extended s' i delta.toNat v := by
  have hrun := run_grow ht delta v
  rw [Table.grow_of_typed hv hs, if_neg (Nat.not_lt.2 h)] at hrun
  have hinvoke : (TableOp.grow i).invoke [v, .i32 delta] s = _ := TableOp.invoke_of_ok hrun
  exact ⟨_, hinvoke, extended_set ht (t.extended_append delta.toNat v) []⟩

end

/-- Growing by a number with a sign, which is read without one, is refused exactly if the new size
would exceed the maximum or the greatest size of all tables. Then the answer is minus one and
nothing has changed; otherwise the answer is the old size, which is never negative, and the table
has been extended. So every negative number is refused, and zero never is. -/
theorem grow_unambiguous (as : List Action) (i : UInt32) (t : Table)
    (ht : (empty.after as).tables[i.toNat]? = some t) (v : Value)
    (hv : v.type = t.type.element.toValueType) (delta : Int32) :
    ∃ (n : Int32) (s' : Store),
      (TableOp.grow i).invoke [v, .ofInt32 delta] (empty.after as) = (.ok [.ofInt32 n], s') ∧
      (n = -1 ↔ min (t.type.limits.max.getD 0xFFFFFFFF).toNat maxTableSize.toNat <
        t.elements.size + (delta.toInt % 2 ^ 32).toNat) ∧
      (n = -1 → Same (empty.after as) s') ∧
      (n ≠ -1 → n.toInt = t.elements.size ∧ t.elements.size ≤ maxTableSize.toNat ∧
        (empty.after as).Extended s' i (delta.toInt % 2 ^ 32).toNat v) ∧
      (delta < 0 → n = -1) ∧ (delta = 0 → n.toInt = t.elements.size) := by
  have hw := (built_after built_empty as t (List.mem_of_getElem? ht)).wellFormed
  have hsize := hw.le_max
  rw [← t.toNat_bound] at hsize
  have hbound := t.bound_le
  have hmax : maxTableSize.toNat < 2 ^ 31 := by decide
  have hold : t.size.toInt32.toInt = t.elements.size := by
    rw [UInt32.toInt_signed (by rw [hw.size_eq]; omega), hw.size_eq]
  have hnonneg : t.size.toInt32 ≠ -1 := fun h => by
    rw [h] at hold
    exact absurd hold (by simp)
  rw [← Int32.toNat_word, ← t.toNat_bound]
  by_cases h : t.bound.toNat < t.elements.size + delta.toUInt32.toNat
  · refine ⟨-1, _, invoke_grow_of_lt ht hv hw.size_eq h, iff_of_true rfl h, fun _ => ⟨rfl, rfl⟩,
      fun hne => absurd rfl hne, fun _ => rfl, ?_⟩
    rintro rfl
    exact absurd h (Nat.not_lt.2 hsize)
  · obtain ⟨s', hinvoke, hs'⟩ := invoke_grow_of_le ht hv hw.size_eq (Nat.le_of_not_lt h)
    refine ⟨_, s', hinvoke, iff_of_false hnonneg h, fun hne => absurd hne hnonneg,
      fun _ => ⟨hold, by omega, hs'⟩, fun hneg => ?_, fun _ => hold⟩
    have := Int32.le_toNat_word hneg
    omega

/-- A table without a maximum is not grown by minus one, but it is by two. -/
theorem grow_unambiguous_twice :
    (∃ s', (TableOp.grow 0).invoke [.externref none, .ofInt32 (-1)]
        (empty.after [.addTable ⟨.externref, ⟨1, none⟩⟩]) = (.ok [.ofInt32 (-1)], s') ∧
      Same (empty.after [.addTable ⟨.externref, ⟨1, none⟩⟩]) s') ∧
    ∃ n s', (TableOp.grow 0).invoke [.externref (some 6), .ofInt32 2]
        (empty.after [.addTable ⟨.externref, ⟨1, none⟩⟩]) = (.ok [.ofInt32 n], s') ∧
      n.toInt = 1 ∧
      (empty.after [.addTable ⟨.externref, ⟨1, none⟩⟩]).Extended s' 0 2 (.externref (some 6)) := by
  have h := grow_unambiguous [.addTable ⟨.externref, ⟨1, none⟩⟩] 0 _ rfl
  constructor
  · obtain ⟨n, s', hinvoke, -, hsame, -, hneg, -⟩ := h (.externref none) rfl (-1)
    obtain rfl := hneg (by decide)
    exact ⟨s', hinvoke, hsame rfl⟩
  · obtain ⟨n, s', hinvoke, hiff, -, hextended, -⟩ := h (.externref (some 6)) rfl 2
    have hn : n ≠ -1 := fun hn => absurd (hiff.1 hn) (by decide)
    exact ⟨n, s', hinvoke, (hextended hn).1, (hextended hn).2.2⟩

end Store

end WasmCheck
