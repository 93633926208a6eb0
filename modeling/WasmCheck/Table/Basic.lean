import WasmCheck.Types.Limits
import WasmCheck.Value

/-!
# Tables

A table holds references of one type. Before anything is written in it, the type of what is written
is checked, and whether the range lies inside. A range that starts at the size and is empty does.
-/

namespace WasmCheck

def maxTableSize : UInt32 := 10000000

/-- The array with `ys` written over it from `start` on. -/
def overwrite {α : Type} (xs : Array α) (start : Nat) (ys : Array α) : Array α :=
  xs.extract 0 start ++ ys ++ xs.extract (start + ys.size) xs.size

theorem size_overwrite {α : Type} {xs ys : Array α} {start : Nat} (h : start + ys.size ≤ xs.size) :
    (overwrite xs start ys).size = xs.size := by
  simp only [overwrite, Array.size_append, Array.size_extract]
  omega

theorem getElem?_overwrite {α : Type} {xs ys : Array α} {start : Nat}
    (h : start + ys.size ≤ xs.size) (i : Nat) :
    (overwrite xs start ys)[i]? =
      if start ≤ i ∧ i < start + ys.size then ys[i - start]? else xs[i]? := by
  have hl : (xs.extract 0 start).size = start := by simp; omega
  unfold overwrite
  rw [Array.append_assoc]
  by_cases h1 : i < start
  · rw [Array.getElem?_append_left (by omega), if_neg (by omega), Array.getElem?_extract,
      if_pos (by omega), Nat.zero_add]
  · rw [Array.getElem?_append_right (by omega), hl]
    by_cases h2 : i < start + ys.size
    · rw [Array.getElem?_append_left (by omega), if_pos ⟨by omega, h2⟩]
    · rw [Array.getElem?_append_right (by omega), if_neg (by omega), Array.getElem?_extract]
      by_cases h3 : i < xs.size
      · rw [if_pos (by omega)]
        congr 1
        omega
      · rw [if_neg (by omega), Array.getElem?_eq_none (by omega)]

/-- The type is declared; the number of elements changes only by growing. -/
structure Table where
  type : TableType
  elements : Array Value
deriving DecidableEq, Repr

namespace Table

def checkElement (t : RefType) (v : Value) : Except Error Unit :=
  if v.type = t.toValueType then .ok () else .error (.elementType t v.type)

def checkElements (t : RefType) : List Value → Except Error Unit
  | [] => .ok ()
  | v :: vs => do
    checkElement t v
    checkElements t vs

def checkRange (op : String) (start len : UInt32) (size : Nat) : Except Error Unit :=
  if start.toNat + len.toNat ≤ size then .ok () else .error (.tableRange op)

def checkSameType (source t : Table) : Except Error Unit :=
  if source.type.element = t.type.element then .ok ()
  else .error (.tableCopyTypes source.type.element t.type.element)

theorem checkElement_eq_ok_iff {t : RefType} {v : Value} :
    checkElement t v = .ok () ↔ v.type = t.toValueType := by
  unfold checkElement
  split <;> simp [*]

theorem checkElements_eq_ok_iff {t : RefType} {vs : List Value} :
    checkElements t vs = .ok () ↔ ∀ v ∈ vs, v.type = t.toValueType := by
  induction vs with
  | nil => simp [checkElements]
  | cons v vs ih =>
    by_cases h : v.type = t.toValueType
    · simpa [checkElements, checkElement, h, bind, Except.bind] using ih
    · simp [checkElements, checkElement, h, bind, Except.bind]

theorem checkRange_eq_ok_iff {op : String} {start len : UInt32} {size : Nat} :
    checkRange op start len size = .ok () ↔ start.toNat + len.toNat ≤ size := by
  unfold checkRange
  split <;> simp [*]

theorem checkSameType_eq_ok_iff {source t : Table} :
    checkSameType source t = .ok () ↔ source.type.element = t.type.element := by
  unfold checkSameType
  split <;> simp [*]

/-- A table of the declared least size, with `init` everywhere. -/
def filled (t : TableType) (init : Value) : Except Error Table := do
  t.limits.check
  if maxTableSize < t.limits.min then
    throw (.tableTooLarge maxTableSize.toNat)
  checkElement t.element init
  return ⟨t, Array.replicate t.limits.min.toNat init⟩

def ofType (t : TableType) : Except Error Table := filled t t.element.null

def size (t : Table) : UInt32 := UInt32.ofNatClamp t.elements.size

def get (t : Table) (i : UInt32) : Except Error Value :=
  match t.elements[i.toNat]? with
  | some v => .ok v
  | none => .error (.tableAccess "table.get" i t.size)

def bound (t : Table) : UInt32 :=
  match t.type.limits.max with
  | some max => min max maxTableSize
  | none => maxTableSize

end Table

end WasmCheck
