import WasmCheck.Proofs.Outcome
import WasmCheck.Proofs.Typing.Basic

/-!
# Look-ups and typing rules

The type that a look-up finds for an instruction is the one that its rule gives, and a look-up fails
only where no rule applies.
-/

namespace WasmCheck

/-! ## Local variables -/

theorem LocalGroup.type?_eq_getElem? (gs : List LocalGroup) (i : Nat) :
    type? gs i = (gs.flatMap fun g => List.replicate g.count.toNat g.type)[i]? := by
  induction gs generalizing i with
  | nil => rfl
  | cons g gs ih =>
    rw [type?, List.flatMap_cons]
    split
    · next hi =>
      rw [List.getElem?_append_left (by simpa using hi), List.getElem?_replicate_of_lt hi]
    · next hi =>
      rw [List.getElem?_append_right (by simpa using hi), List.length_replicate, ih]

theorem Locals.typeOf_eq_ok_iff {l : Locals} {i : UInt32} {t : ValueType} :
    l.typeOf i = .ok t ↔ l.types[i.toNat]? = some t := by
  unfold typeOf types
  split
  · next h => rw [List.getElem?_append_left (List.getElem?_eq_some_iff.1 h).1, h]; simp
  · next h =>
    rw [List.getElem?_append_right (List.getElem?_eq_none_iff.1 h), LocalGroup.type?_eq_getElem?]
    split <;> simp_all

/-! ## Instructions -/

def Context.scope (c : Context) (fs : List Frame) : Scope :=
  ⟨c.module, c.locals.types, fs.map (·.labelTypes), c.results⟩

theorem Context.label_eq_some_iff {c : Context} {fs : List Frame} {n : Nat}
    {ts : List ValueType} :
    (c.scope fs).labels[n]? = some ts ↔ ∃ f, fs[n]? = some f ∧ f.labelTypes = ts := by
  rw [scope, List.getElem?_map, Option.map_eq_some_iff]

theorem BlockType.funcType_eq_ok_iff {m : Module} {b : BlockType} {t : FuncType} :
    b.funcType m = .ok t ↔ b.Means m t := by
  constructor
  · intro h
    cases b with
    | empty => cases h; exact .empty
    | result => cases h; exact .result _
    | index => exact .index (lookup_eq_ok_iff.1 h)
  · rintro (_ | _ | h)
    · rfl
    · rfl
    · exact lookup_eq_ok_iff.2 h

theorem Module.checkAccess_eq_ok_iff {m : Module} {w : Nat} {a : MemArg} {u : Unit} :
    m.checkAccess w a = .ok u ↔ (∃ t, m.memories[0]? = some t) ∧ a.align.toNat ≤ w := by
  simp only [checkAccess, Except.bind_eq_ok_iff, memory, lookup_eq_ok_iff]
  by_cases h : w < a.align.toNat
  · simp [h]
  · simp [h, Nat.le_of_not_lt h]

theorem TableOp.type_eq_ok_iff {m : Module} {o : TableOp} {ps rs : List ValueType} :
    o.type m = .ok ⟨ps, rs⟩ ↔ o.HasType m ps rs := by
  constructor
  · intro h
    cases o <;>
      simp only [type, Except.bind_eq_ok_iff, Except.pure_eq_ok_iff, FuncType.mk.injEq,
        Module.table, Module.segment, lookup_eq_ok_iff] at h
    case get => obtain ⟨t, ht, rfl, rfl⟩ := h; exact .get ht
    case set => obtain ⟨t, ht, rfl, rfl⟩ := h; exact .set ht
    case size => obtain ⟨t, ht, rfl, rfl⟩ := h; exact .size ht
    case grow => obtain ⟨t, ht, rfl, rfl⟩ := h; exact .grow ht
    case fill => obtain ⟨t, ht, rfl, rfl⟩ := h; exact .fill ht
    case copy =>
      obtain ⟨t, ht, u, hu, h⟩ := h
      split at h
      · next he => cases h; exact .copy ht hu he
      · cases h
    case init =>
      obtain ⟨t, ht, s, hs, h⟩ := h
      split at h
      · next he => cases h; exact .init ht hs he
      · cases h
    case dropSegment => obtain ⟨s, hs, rfl, rfl⟩ := h; exact .dropSegment hs
  · intro h
    cases h <;>
      simp_all [-bind_pure_comp, type, Except.bind_eq_ok_iff, Except.pure_eq_ok_iff, Module.table,
        Module.segment, lookup_eq_ok_iff]

theorem FixedOp.hasType_of_type {c : Context} (fs : List Frame) {o : FixedOp}
    {ps rs : List ValueType} (h : o.type c = .ok ⟨ps, rs⟩) : o.HasType (c.scope fs) ps rs := by
  cases o <;>
    simp only [type, Except.bind_eq_ok_iff, Except.pure_eq_ok_iff, FuncType.mk.injEq,
      Except.ok.injEq, Module.table, Module.global, Module.memory, Module.functionType,
      Module.funcType, lookup_eq_ok_iff, Locals.typeOf_eq_ok_iff, TableOp.type_eq_ok_iff,
      Module.checkAccess_eq_ok_iff, NumericOp.type] at h
  case call => obtain ⟨j, hj, h⟩ := h; exact .call (t := ⟨ps, rs⟩) hj h
  case callIndirect =>
    obtain ⟨u, hu, h⟩ := h
    split at h
    · next he =>
      simp only [Except.bind_eq_ok_iff, Except.pure_eq_ok_iff, FuncType.mk.injEq,
        lookup_eq_ok_iff] at h
      obtain ⟨t, ht, rfl, rfl⟩ := h
      exact .callIndirect hu he ht
    · cases h
  case selectTyped t => obtain ⟨rfl, rfl⟩ := h; exact .selectTyped t
  case localGet => obtain ⟨t, ht, rfl, rfl⟩ := h; exact .localGet ht
  case localSet => obtain ⟨t, ht, rfl, rfl⟩ := h; exact .localSet ht
  case localTee => obtain ⟨t, ht, rfl, rfl⟩ := h; exact .localTee ht
  case globalGet => obtain ⟨g, hg, rfl, rfl⟩ := h; exact .globalGet hg
  case globalSet =>
    obtain ⟨g, hg, h⟩ := h
    split at h
    · next hm => cases h; exact .globalSet hg hm
    · cases h
  case table => exact .table h
  case refNull t => obtain ⟨rfl, rfl⟩ := h; exact .refNull t
  case refFunc => obtain ⟨t, ⟨j, hj, -⟩, rfl, rfl⟩ := h; exact .refFunc hj
  case load => obtain ⟨_, ⟨⟨m, hm⟩, ha⟩, rfl, rfl⟩ := h; exact .load hm ha
  case store => obtain ⟨_, ⟨⟨m, hm⟩, ha⟩, rfl, rfl⟩ := h; exact .store hm ha
  case memorySize => obtain ⟨m, hm, rfl, rfl⟩ := h; exact .memorySize hm
  case memoryGrow => obtain ⟨m, hm, rfl, rfl⟩ := h; exact .memoryGrow hm
  case i32Const b => obtain ⟨rfl, rfl⟩ := h; exact .i32Const b
  case i64Const b => obtain ⟨rfl, rfl⟩ := h; exact .i64Const b
  case f32Const b => obtain ⟨rfl, rfl⟩ := h; exact .f32Const b
  case f64Const b => obtain ⟨rfl, rfl⟩ := h; exact .f64Const b
  case numeric o => obtain ⟨rfl, rfl⟩ := h; exact .numeric o

/-- A reference is only made to a function whose type is found. -/
theorem FixedOp.refsTyped_of_type {c : Context} {o : FixedOp} {t : FuncType}
    (h : o.type c = .ok t) : c.module.RefsTyped [.op (.fixed o)] := by
  intro i j hi hj
  cases List.mem_singleton.1 hi
  simp only [type, Except.bind_eq_ok_iff, Module.functionType, Module.funcType, lookup_eq_ok_iff,
    hj, Option.some.injEq] at h
  obtain ⟨u, ⟨_, rfl, hu⟩, -⟩ := h
  exact ⟨u, hu⟩

/-- The type that the rule gives is found, but for a reference to a function without a type. -/
theorem FixedOp.HasType.type_eq {c : Context} {fs : List Frame} {o : FixedOp}
    {ps rs : List ValueType} (h : o.HasType (c.scope fs) ps rs)
    (hr : c.module.RefsTyped [.op (.fixed o)]) : o.type c = .ok ⟨ps, rs⟩ := by
  cases h
  case refFunc hj =>
    obtain ⟨t, ht⟩ := hr _ _ (List.mem_singleton_self _) hj
    have hf : c.module.functionType _ = .ok t :=
      Except.bind_eq_ok_iff.2 ⟨_, lookup_eq_ok_iff.2 hj, lookup_eq_ok_iff.2 ht⟩
    rw [type, hf]
    rfl
  all_goals
    simp_all [-bind_pure_comp, type, Context.scope, Except.bind_eq_ok_iff,
      Except.pure_eq_ok_iff, Module.table, Module.global, Module.memory, Module.functionType,
      Module.funcType, lookup_eq_ok_iff, Locals.typeOf_eq_ok_iff, TableOp.type_eq_ok_iff,
      Module.checkAccess_eq_ok_iff, NumericOp.type]

end WasmCheck
