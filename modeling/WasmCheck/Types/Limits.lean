import WasmCheck.Error

/-!
# Limits

Declared sizes of tables and memories, and the rules that declarations have to keep.
-/

namespace WasmCheck

structure Limits where
  min : UInt32
  max : Option UInt32
deriving DecidableEq, Repr, Inhabited

def Limits.check (l : Limits) : Except Error Unit :=
  match l.max with
  | some max => if max < l.min then .error .minAboveMax else .ok ()
  | none => .ok ()

theorem Limits.check_eq_ok_iff {l : Limits} :
    l.check = .ok () ↔ ∀ max ∈ l.max, l.min ≤ max := by
  rcases l with ⟨min, _ | max⟩ <;> simp [check]

structure TableType where
  element : RefType
  limits : Limits
deriving DecidableEq, Repr, Inhabited

/-- A memory is measured in pages of 64 KiB. -/
structure MemoryType where
  limits : Limits
deriving DecidableEq, Repr, Inhabited

structure GlobalType where
  type : ValueType
  mutable : Bool
deriving DecidableEq, Repr, Inhabited

/-- The number of pages that fill a 32-bit address space. -/
def maxMemoryPages : UInt32 := 65536

def MemoryType.check (m : MemoryType) : Except Error Unit :=
  if maxMemoryPages < m.limits.min then .error (.initialPages m.limits.min maxMemoryPages)
  else match m.limits.max with
    | some max =>
      if maxMemoryPages < max then .error (.maxPages max maxMemoryPages) else m.limits.check
    | none => .ok ()

theorem MemoryType.check_eq_ok_iff {m : MemoryType} :
    m.check = .ok () ↔ m.limits.min ≤ maxMemoryPages ∧
      ∀ max ∈ m.limits.max, max ≤ maxMemoryPages ∧ m.limits.min ≤ max := by
  rcases m with ⟨min, _ | max⟩
  · by_cases h : maxMemoryPages < min <;> simp_all [check]
  · by_cases h : maxMemoryPages < min
    · simp [check, h, UInt32.not_le.2 h]
    · by_cases h' : maxMemoryPages < max
      · simp [check, h, h', UInt32.not_le.2 h']
      · simp [check, h, h', Limits.check, UInt32.not_lt.1 h, UInt32.not_lt.1 h']

end WasmCheck
