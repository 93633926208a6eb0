import WasmCheck.Table.Change
import WasmCheck.Proofs.Outcome

/-!
# What tables hold

A table starts with one value everywhere, and every operation looks at the type of what it writes.
So the elements of a table that has come about this way are of the type that the table declares.
With operands of the right types an operation can fail only by a trap.
-/

namespace WasmCheck

theorem mem_of_mem_extract {α : Type} {xs : Array α} {i j : Nat} {a : α}
    (h : a ∈ xs.extract i j) : a ∈ xs := by
  obtain ⟨k, hk, rfl⟩ := Array.mem_extract_iff_getElem.1 h
  exact Array.getElem_mem _

theorem mem_overwrite {α : Type} {xs ys : Array α} {start : Nat} {a : α}
    (h : a ∈ overwrite xs start ys) : a ∈ xs ∨ a ∈ ys := by
  unfold overwrite at h
  rcases Array.mem_append.1 h with h | h
  · rcases Array.mem_append.1 h with h | h
    · exact .inl (mem_of_mem_extract h)
    · exact .inr h
  · exact .inl (mem_of_mem_extract h)

namespace Table

def Uniform (t : Table) : Prop := ∀ v ∈ t.elements, v.type = t.type.element.toValueType

/-- The tables that come about: one is filled with a value, and then changed by operations only. -/
inductive Built : Table → Prop where
  | filled {type : TableType} {v : Value} {t : Table} : Table.filled type v = .ok t → Built t
  | set {t t' : Table} {i : UInt32} {v : Value} : Built t → t.set i v = .ok t' → Built t'
  | grow {t t' : Table} {delta : UInt32} {v : Value} :
      Built t → t.grow delta v = .ok (some t') → Built t'
  | fill {t t' : Table} {start len : UInt32} {v : Value} :
      Built t → t.fill start v len = .ok t' → Built t'
  | copyFrom {t t' source : Table} {dst src len : UInt32} : Built t → Built source →
      t.copyFrom dst source src len = .ok t' → Built t'
  | init {t t' : Table} {dst src len : UInt32} {segment : List Value} : Built t →
      t.init dst segment src len = .ok t' → Built t'

variable {t t' source : Table} {i start dst src len delta : UInt32} {v : Value}
  {segment : List Value}

/-! ## What an operation gives -/

theorem filled_eq_ok {type : TableType} (h : filled type v = .ok t) :
    v.type = type.element.toValueType ∧ (∀ max ∈ type.limits.max, type.limits.min ≤ max) ∧
      type.limits.min ≤ maxTableSize ∧
      t = ⟨type, Array.replicate type.limits.min.toNat v⟩ := by
  simp only [filled, Except.bind_eq_ok_iff] at h
  obtain ⟨_, hl, h⟩ := h
  split at h
  · cases h
  · next hm =>
    simp only [Except.bind_eq_ok_iff, Except.pure_eq_ok_iff] at h
    obtain ⟨_, hv, rfl⟩ := h
    exact ⟨checkElement_eq_ok_iff.1 hv, Limits.check_eq_ok_iff.1 hl, UInt32.not_lt.1 hm, rfl⟩

theorem set_eq_ok (h : t.set i v = .ok t') : v.type = t.type.element.toValueType ∧
    ∃ hi : i.toNat < t.elements.size, t' = { t with elements := t.elements.set i.toNat v hi } := by
  simp only [set_eq, Except.bind_eq_ok_iff] at h
  obtain ⟨_, hv, h⟩ := h
  split at h
  · next hi => cases h; exact ⟨checkElement_eq_ok_iff.1 hv, hi, rfl⟩
  · cases h

theorem grow_eq_ok (h : t.grow delta v = .ok (some t')) : v.type = t.type.element.toValueType ∧
    t.size.toNat + delta.toNat ≤ t.bound.toNat ∧
    t' = { t with elements := t.elements ++ Array.replicate delta.toNat v } := by
  simp only [grow_eq, Except.bind_eq_ok_iff] at h
  obtain ⟨_, hv, h⟩ := h
  split at h
  · next hb => cases h; exact ⟨checkElement_eq_ok_iff.1 hv, hb, rfl⟩
  · cases h

theorem fill_eq_ok (h : t.fill start v len = .ok t') : v.type = t.type.element.toValueType ∧
    start.toNat + len.toNat ≤ t.elements.size ∧ t' = { t with
      elements := overwrite t.elements start.toNat (Array.replicate len.toNat v) } := by
  simp only [fill_eq, Except.bind_eq_ok_iff, Except.pure_eq_ok_iff] at h
  obtain ⟨_, hv, _, hr, rfl⟩ := h
  exact ⟨checkElement_eq_ok_iff.1 hv, checkRange_eq_ok_iff.1 hr, rfl⟩

theorem copyFrom_eq_ok (h : t.copyFrom dst source src len = .ok t') :
    source.type.element = t.type.element ∧ src.toNat + len.toNat ≤ source.elements.size ∧
      dst.toNat + len.toNat ≤ t.elements.size ∧ t' = { t with
        elements := overwrite t.elements dst.toNat
          (source.elements.extract src.toNat (src.toNat + len.toNat)) } := by
  simp only [copyFrom_eq, Except.bind_eq_ok_iff, Except.pure_eq_ok_iff] at h
  obtain ⟨_, he, _, hs, _, hd, rfl⟩ := h
  exact ⟨checkSameType_eq_ok_iff.1 he, checkRange_eq_ok_iff.1 hs, checkRange_eq_ok_iff.1 hd, rfl⟩

theorem init_eq_ok (h : t.init dst segment src len = .ok t') :
    (∀ v ∈ (segment.drop src.toNat).take len.toNat, v.type = t.type.element.toValueType) ∧
      src.toNat + len.toNat ≤ segment.length ∧ dst.toNat + len.toNat ≤ t.elements.size ∧
      t' = { t with
        elements := overwrite t.elements dst.toNat
          ((segment.drop src.toNat).take len.toNat).toArray } := by
  simp only [init_eq, Except.bind_eq_ok_iff, Except.pure_eq_ok_iff] at h
  obtain ⟨_, hs, _, hd, _, hi, rfl⟩ := h
  exact ⟨checkElements_eq_ok_iff.1 hi, checkRange_eq_ok_iff.1 hs, checkRange_eq_ok_iff.1 hd, rfl⟩

theorem Built.uniform (h : t.Built) : t.Uniform := by
  induction h with
  | filled h =>
    obtain ⟨hv, -, -, rfl⟩ := filled_eq_ok h
    intro w hw
    rw [(Array.mem_replicate.1 hw).2]
    exact hv
  | set _ h ih =>
    obtain ⟨hv, hi, rfl⟩ := set_eq_ok h
    intro w hw
    rcases Array.mem_or_eq_of_mem_set (w := hi) hw with hw | rfl
    · exact ih w hw
    · exact hv
  | grow _ h ih =>
    obtain ⟨hv, -, rfl⟩ := grow_eq_ok h
    intro w hw
    rcases Array.mem_append.1 hw with hw | hw
    · exact ih w hw
    · rw [(Array.mem_replicate.1 hw).2]
      exact hv
  | fill _ h ih =>
    obtain ⟨hv, -, rfl⟩ := fill_eq_ok h
    intro w hw
    rcases mem_overwrite hw with hw | hw
    · exact ih w hw
    · rw [(Array.mem_replicate.1 hw).2]
      exact hv
  | copyFrom _ _ h ih ih' =>
    obtain ⟨he, -, -, rfl⟩ := copyFrom_eq_ok h
    intro w hw
    rcases mem_overwrite hw with hw | hw
    · exact ih w hw
    · rw [ih' w (mem_of_mem_extract hw), he]
  | init _ h ih =>
    obtain ⟨hs, -, -, rfl⟩ := init_eq_ok h
    intro w hw
    rcases mem_overwrite hw with hw | hw
    · exact ih w hw
    · exact hs w (List.mem_toArray.1 hw)

/-! ## Operands of the right types -/

def Changes (t : Table) (r : Except Error Table) : Prop :=
  match r with
  | .ok t' => t'.Built ∧ t'.type = t.type
  | .error e => e.category = .runtimeTrap

theorem checkRange_cases (op : String) (start len : UInt32) (size : Nat) :
    checkRange op start len size = .ok () ∨
      checkRange op start len size = .error (.tableRange op) := by
  unfold checkRange
  split
  · exact .inl rfl
  · exact .inr rfl

theorem type_of_get (hb : t.Built) (h : t.get i = .ok v) : v.type = t.type.element.toValueType := by
  unfold get at h
  split at h
  · next hi => cases h; exact hb.uniform v (Array.mem_of_getElem? hi)
  · cases h

theorem trap_of_get {e : Error} (h : t.get i = .error e) : e.category = .runtimeTrap := by
  unfold get at h
  split at h
  · cases h
  · cases h; rfl

theorem changes_set (hb : t.Built) (hv : v.type = t.type.element.toValueType) (i : UInt32) :
    t.Changes (t.set i v) := by
  cases h : t.set i v with
  | ok t' =>
    obtain ⟨-, hi, rfl⟩ := set_eq_ok h
    exact ⟨hb.set h, rfl⟩
  | error e =>
    rw [set_eq, checkElement_eq_ok_iff.2 hv] at h
    by_cases hi : i.toNat < t.elements.size
    · simp [bind, Except.bind, pure, Except.pure, hi] at h
    · simp only [bind, Except.bind, hi, dite_false] at h
      cases h
      rfl

theorem grow_cases (hb : t.Built) (hv : v.type = t.type.element.toValueType)
    (delta : UInt32) : t.grow delta v = .ok none ∨
      ∃ t', t.grow delta v = .ok (some t') ∧ t'.Built ∧ t'.type = t.type := by
  cases h : t.grow delta v with
  | ok r =>
    cases r with
    | none => exact .inl rfl
    | some t' =>
      obtain ⟨-, -, rfl⟩ := grow_eq_ok h
      exact .inr ⟨_, rfl, hb.grow h, rfl⟩
  | error e =>
    rw [grow_eq, checkElement_eq_ok_iff.2 hv] at h
    simp only [bind, Except.bind] at h
    split at h <;> cases h

theorem changes_fill (hb : t.Built) (hv : v.type = t.type.element.toValueType)
    (start len : UInt32) : t.Changes (t.fill start v len) := by
  cases h : t.fill start v len with
  | ok t' =>
    obtain ⟨-, -, rfl⟩ := fill_eq_ok h
    exact ⟨hb.fill h, rfl⟩
  | error e =>
    rw [fill_eq, checkElement_eq_ok_iff.2 hv] at h
    rcases checkRange_cases "table.fill" start len t.elements.size with hr | hr
    · rw [hr] at h
      cases h
    · rw [hr] at h
      cases h
      rfl

theorem changes_copyFrom (hb : t.Built) (hs : source.Built)
    (he : source.type.element = t.type.element) (dst src len : UInt32) :
    t.Changes (t.copyFrom dst source src len) := by
  cases h : t.copyFrom dst source src len with
  | ok t' =>
    obtain ⟨-, -, -, rfl⟩ := copyFrom_eq_ok h
    exact ⟨hb.copyFrom hs h, rfl⟩
  | error e =>
    rw [copyFrom_eq, checkSameType_eq_ok_iff.2 he] at h
    rcases checkRange_cases "table.copy" src len source.elements.size with hr | hr
    · rcases checkRange_cases "table.copy" dst len t.elements.size with hr' | hr'
      · rw [hr, hr'] at h
        cases h
      · rw [hr, hr'] at h
        cases h
        rfl
    · rw [hr] at h
      cases h
      rfl

theorem changes_init (hb : t.Built)
    (hs : ∀ v ∈ segment, v.type = t.type.element.toValueType) (dst src len : UInt32) :
    t.Changes (t.init dst segment src len) := by
  have hitems : checkElements t.type.element ((segment.drop src.toNat).take len.toNat) = .ok () :=
    checkElements_eq_ok_iff.2 fun v hv => hs v (List.mem_of_mem_drop (List.mem_of_mem_take hv))
  cases h : t.init dst segment src len with
  | ok t' =>
    obtain ⟨-, -, -, rfl⟩ := init_eq_ok h
    exact ⟨hb.init h, rfl⟩
  | error e =>
    rw [init_eq] at h
    rcases checkRange_cases "table.init" src len segment.length with hr | hr
    · rcases checkRange_cases "table.init" dst len t.elements.size with hr' | hr'
      · rw [hr, hr'] at h
        simp only [bind, Except.bind, hitems] at h
        cases h
      · rw [hr, hr'] at h
        cases h
        rfl
    · rw [hr] at h
      cases h
      rfl

end Table

end WasmCheck
