import WasmCheck.Proofs.Body.Blame
import WasmCheck.Proofs.Report.FailFast
import WasmCheck.Proofs.Typing.Basic

/-!
# Well-declared modules

The declarations are checked space by space, and a segment is checked against the others. Together
the checks ask for what `WellDeclared` says. It makes the space of functions total: each index below
its size has a type, so that no body of the module has to miss one.
-/

namespace WasmCheck

open Attempt

/-- An index that has to name a function type names none. -/
def Error.MissesType (e : Error) : Prop := ∃ i n, e = .indexOutOfRange "type" i n

namespace Module

structure WellDeclared (m : Module) : Prop where
  imports : ∀ i ∈ m.imports, i.toNat < m.types.length
  functions : ∀ b ∈ m.functions, b.typeIndex.toNat < m.types.length
  tables : ∀ t ∈ m.tables, ∀ max ∈ t.limits.max, t.limits.min ≤ max
  memories : ∀ t ∈ m.memories, t.limits.min ≤ 65536 ∧
    ∀ max ∈ t.limits.max, max ≤ 65536 ∧ t.limits.min ≤ max
  /-- An active segment has a table to go to. -/
  active : ∀ g ∈ m.segments, ∀ i, g.mode = .active i →
    ∃ t, m.tables[i.toNat]? = some t ∧ t.element = g.type
  listed : ∀ g ∈ m.segments, ∀ f ∈ g.functions, f < m.functionCount

/-- Each function has a type, and functions are counted from the first import to the last
definition. -/
structure FunctionsKnown (m : Module) : Prop where
  count : m.functionCount.toNat = m.imports.length + m.functions.length
  functionType_isOk (i : UInt32) : (∃ t, m.functionType i = .ok t) ↔ i < m.functionCount
  imported (i j : UInt32) : m.imports[i.toNat]? = some j → m.functionType i = m.funcType j
  defined (i : UInt32) (p : Nat) (b : FunctionBody) : i.toNat = m.imports.length + p →
    m.functions[p]? = some b → m.functionType i = m.funcType b.typeIndex

variable {m : Module}

/-! ## The space of functions -/

theorem functionType_eq {i j : UInt32} (h : m.functionSpace[i.toNat]? = some j) :
    m.functionType i = m.funcType j := by
  rw [functionType, lookup_eq_ok_iff.2 h]
  rfl

theorem length_functionSpace (m : Module) :
    m.functionSpace.length = m.imports.length + m.functions.length := by
  rw [functionSpace, List.length_append, List.length_map]

theorem toNat_functionCount (h : m.imports.length + m.functions.length < UInt32.size) :
    m.functionCount.toNat = m.imports.length + m.functions.length := by
  rw [functionCount, spaceSize, length_functionSpace]
  exact UInt32.toNat_ofNatClamp_of_lt h

theorem forall_functionSpace_iff : (∀ j ∈ m.functionSpace, j.toNat < m.types.length) ↔
    (∀ j ∈ m.imports, j.toNat < m.types.length) ∧
      ∀ b ∈ m.functions, b.typeIndex.toNat < m.types.length := by
  simp only [functionSpace, List.mem_append, List.mem_map, or_imp, forall_and,
    forall_exists_index, and_imp, forall_apply_eq_imp_iff₂]

section Known
variable (hj : ∀ j ∈ m.functionSpace, j.toNat < m.types.length)
include hj

theorem functionType_isOk_iff (h : m.imports.length + m.functions.length < UInt32.size)
    {i : UInt32} : (∃ t, m.functionType i = .ok t) ↔ i < m.functionCount := by
  rw [UInt32.lt_iff_toNat_lt, toNat_functionCount h, ← length_functionSpace]
  constructor
  · rintro ⟨t, ht⟩
    obtain ⟨j, hi, -⟩ := Except.bind_eq_ok_iff.1 ht
    exact lookup_isOk_iff.1 ⟨j, hi⟩
  · intro hi
    rw [functionType_eq (List.getElem?_eq_getElem hi)]
    exact lookup_isOk_iff.2 (hj _ (List.getElem_mem hi))

/-- What is missing is a function, not its type. -/
theorem not_missesType_of_functionType {i : UInt32} {e : Error}
    (h : m.functionType i = .error e) : ¬e.MissesType := by
  cases hi : m.functionSpace[i.toNat]? with
  | some j =>
    rw [functionType_eq hi] at h
    have hlt := hj j (List.mem_of_getElem? hi)
    exact absurd (lookup_eq_error_iff.1 h).1 (Nat.not_le.2 hlt)
  | none =>
    rw [functionType, lookup_eq_error_iff.2 ⟨List.getElem?_eq_none_iff.1 hi, rfl⟩] at h
    cases h
    simp [Error.MissesType]

end Known

end Module

/-! ## Declarations -/

theorem ElementSegment.checkFunctions_eq_ok_iff {m : Module} {fs : List UInt32} :
    checkFunctions m fs = .ok () ↔ ∀ f ∈ fs, ∃ t, m.functionType f = .ok t := by
  induction fs with
  | nil => simp [checkFunctions]
  | cons f fs ih =>
    rw [checkFunctions, Except.bind_eq_ok_iff, List.forall_mem_cons, ← ih, exists_and_right]

theorem ElementSegment.checkTable_eq_ok_iff {m : Module} {g : ElementSegment} :
    g.checkTable m = .ok () ↔ ∀ i, g.mode = .active i →
      ∃ t, m.tables[i.toNat]? = some t ∧ t.element = g.type := by
  unfold checkTable
  split
  · next i hi =>
    rw [Except.bind_eq_ok_iff, hi]
    simp only [Module.table, lookup_eq_ok_iff, SegmentMode.active.injEq, forall_eq']
    refine exists_congr fun t => and_congr_right fun _ => ?_
    split <;> simp [*]
  · next hi => simp [hi]
  · next hi => simp [hi]

theorem ElementSegment.check_eq_ok_iff {m : Module} {g : ElementSegment} :
    g.check m = .ok () ↔ (∀ i, g.mode = .active i →
      ∃ t, m.tables[i.toNat]? = some t ∧ t.element = g.type) ∧
      ∀ f ∈ g.functions, ∃ t, m.functionType f = .ok t := by
  rw [check, Except.seq_eq_ok_iff, checkTable_eq_ok_iff, checkFunctions_eq_ok_iff]

namespace Module

variable {m : Module}

theorem checkDeclarations_eq_ok_iff (h : m.imports.length + m.functions.length < UInt32.size) :
    m.checkDeclarations = .ok () ↔ m.WellDeclared := by
  simp only [checkDeclarations, Except.seq_eq_ok_iff, Except.exists_eq_ok_iff, checkEach_eq_ok_iff,
    funcType, lookup_isOk_iff, Limits.check_eq_ok_iff, MemoryType.check_eq_ok_iff,
    ElementSegment.check_eq_ok_iff]
  have hlisted (hi : ∀ i ∈ m.imports, i.toNat < m.types.length)
      (hf : ∀ b ∈ m.functions, b.typeIndex.toNat < m.types.length) (f : UInt32) :
      (∃ t, m.functionType f = .ok t) ↔ f < m.functionCount :=
    functionType_isOk_iff (forall_functionSpace_iff.2 ⟨hi, hf⟩) h
  constructor
  · rintro ⟨hi, hf, ht, hm, hg⟩
    exact ⟨hi, hf, ht, hm, fun g hs => (hg g hs).1,
      fun g hs f hl => (hlisted hi hf f).1 ((hg g hs).2 f hl)⟩
  · rintro ⟨hi, hf, ht, hm, ha, hl⟩
    exact ⟨hi, hf, ht, hm, fun g hs =>
      ⟨ha g hs, fun f hfg => (hlisted hi hf f).2 (hl g hs f hfg)⟩⟩

theorem limits_of_checkDeclarations (h : m.checkDeclarations = .ok ()) :
    ∀ t ∈ m.tables, ∀ max ∈ t.limits.max, t.limits.min ≤ max := by
  simp only [checkDeclarations, Except.seq_eq_ok_iff, Except.exists_eq_ok_iff, checkEach_eq_ok_iff,
    Limits.check_eq_ok_iff] at h
  exact h.2.2.1

/-- In a module whose declarations are accepted a reference may be made to any function. -/
theorem refsTyped_of_checkDeclarations (h : m.checkDeclarations = .ok ()) (is : List Instr) :
    m.RefsTyped is := by
  simp only [checkDeclarations, Except.seq_eq_ok_iff, Except.exists_eq_ok_iff, checkEach_eq_ok_iff,
    funcType, lookup_isOk_iff] at h
  intro i j _ hj
  have hlt := forall_functionSpace_iff.2 ⟨h.1, h.2.1⟩ j (List.mem_of_getElem? hj)
  exact ⟨_, List.getElem?_eq_getElem hlt⟩

namespace WellDeclared

theorem lt_of_mem_functionSpace (hw : m.WellDeclared) :
    ∀ j ∈ m.functionSpace, j.toNat < m.types.length :=
  forall_functionSpace_iff.2 ⟨hw.imports, hw.functions⟩

theorem functionsKnown (hw : m.WellDeclared)
    (h : m.imports.length + m.functions.length < UInt32.size) : m.FunctionsKnown where
  count := toNat_functionCount h
  functionType_isOk _ := functionType_isOk_iff hw.lt_of_mem_functionSpace h
  imported i j hj := by
    refine functionType_eq ?_
    rw [functionSpace, List.getElem?_append_left (List.getElem?_eq_some_iff.1 hj).1, hj]
  defined i p b hi hb := by
    refine functionType_eq ?_
    rw [functionSpace, hi, List.getElem?_append_right (Nat.le_add_right ..),
      Nat.add_sub_cancel_left, List.getElem?_map, hb]
    rfl

end WellDeclared

end Module

/-! ## Bodies -/

/-- The type of a function is looked up: that of the body itself, or that of a function that an
instruction names. -/
inductive FunctionBody.LooksUp (b : FunctionBody) : Fault → Prop where
  | signature : LooksUp b .signature
  | declaration : LooksUp b .declaration
  | call {n offset : Nat} {i : UInt32} : b.code[n]? = some ⟨offset, .op (.fixed (.call i))⟩ →
      LooksUp b (.instruction n)
  | refFunc {n offset : Nat} {i : UInt32} : b.code[n]? = some ⟨offset, .op (.fixed (.refFunc i))⟩ →
      LooksUp b (.instruction n)

namespace Module

variable {m : Module} {config : Config} {b : FunctionBody} {f : Fault} {d : Diagnostic}

theorem not_missesType_of_check (hw : m.WellDeclared) {k : BodyChecker} (hk : k.context.module = m)
    {o : FixedOp} {i : UInt32} (ho : o = .call i ∨ o = .refFunc i) {e : Error}
    (h : (k.check (.op (.fixed o))).1 = .error e) : ¬e.MissesType := by
  rcases FixedOp.post_lookup.of_fst_error h with htype | hne
  · have hmiss : m.functionType i = .error e := by
      rcases ho with rfl | rfl
      · rwa [FixedOp.type, hk] at htype
      · rw [FixedOp.type, hk] at htype
        cases hf : m.functionType i with
        | error e' => rwa [hf] at htype
        | ok => rw [hf] at htype; cases htype
    exact not_missesType_of_functionType hw.lt_of_mem_functionSpace hmiss
  · exact fun ⟨i, n, he⟩ => hne "type" i n he

theorem not_missesType_of_stopsAt (hw : m.WellDeclared) {k k' : BodyChecker}
    (hk : k.context.module = m) {p : Nat} {l : Located} {e : Error}
    (hstop : k.StopsAt b.code p k' l e) (hl : b.LooksUp (.instruction p)) : ¬e.MissesType := by
  have hcontext := (BodyChecker.steps_eq_ok_iff.1 hstop.before).1
  have hk' : k'.context.module = m := by rw [hcontext, hk]
  have hfails := hstop.fails
  cases hl with
  | call hi =>
    rw [hstop.here] at hi
    cases hi
    exact not_missesType_of_check hw hk' (.inl rfl) hfails
  | refFunc hi =>
    rw [hstop.here] at hi
    cases hi
    exact not_missesType_of_check hw hk' (.inr rfl) hfails

theorem Blames.typed (h : m.Blames config b f d) (hw : m.WellDeclared) (hb : b ∈ m.functions) :
    f ≠ .signature ∧ "OnFunction" ∉ d.callbacks ∧
      (b.LooksUp f → ¬d.error.MissesType) := by
  cases h with
  | signature hlen => exact absurd (hw.functions b hb) (Nat.not_lt.2 hlen)
  | declaration _ _ _ hc =>
    refine ⟨by simp, by simp, ?_⟩
    rintro - ⟨i, n, rfl⟩
    cases hc
  | code _ hk h =>
    cases h with
    | unclosed => exact ⟨by simp, by simp, by simp [Error.MissesType, Error.unclosedBody]⟩
    | @instruction p k' l e hstop =>
      refine ⟨by simp, ?_, fun hl => not_missesType_of_stopsAt hw ?_ hstop hl⟩
      · split
        · simp
        · simpa using l.instr.callback_ne_onFunction.symm
      · obtain ⟨-, -, rfl⟩ := BodyChecker.start_eq_ok_iff.1 hk
        rfl

/-- The declarations are accepted if and only if they are in order. Then the space of functions is
total, and no body is refused because a function has no type. -/
theorem checkDeclarations_wellDeclared (m : Module)
    (h : m.imports.length + m.functions.length < UInt32.size) :
    (m.checkDeclarations = .ok () ↔ m.WellDeclared) ∧
      (m.checkDeclarations = .ok () → m.FunctionsKnown ∧ ∀ config : Config,
        (∀ b ∈ m.functions, ∀ d, m.checkBody config b = .error d → "OnFunction" ∉ d.callbacks ∧
          ∃ f, m.Blames config b f d ∧ f ≠ .signature ∧
            (b.LooksUp f → ¬d.error.MissesType)) ∧
        ∀ d ∈ (Id.run (m.report (fun _ => pure ()) config)).diagnostics,
          ∃ b ∈ m.functions, m.checkBody config b = .error d) := by
  have hiff := checkDeclarations_eq_ok_iff h
  refine ⟨hiff, fun hok => ⟨(hiff.1 hok).functionsKnown h, fun config => ⟨?_, ?_⟩⟩⟩
  · intro b hb d hd
    obtain ⟨f, hf⟩ := exists_blames hd
    obtain ⟨hs, ho, hl⟩ := hf.typed (hiff.1 hok) hb
    exact ⟨ho, f, hf, hs, hl⟩
  · intro d hd
    have hr := (failFast_iff m config _).2 rfl
    generalize Id.run (m.report (fun _ => pure ()) config) = r at hd hr
    cases hr with
    | declaration hno =>
      rw [hok] at hno
      cases hno
    | body _ _ hk hb =>
      rw [List.mem_singleton.1 hd]
      exact ⟨_, List.mem_of_getElem? hk, hb⟩
    | nothing => cases hd

/-- One function is imported and one defined; a segment lists both. The body calls a third one. -/
def callsMissing : Module where
  types := [⟨[.i32], []⟩, ⟨[], []⟩]
  imports := [0]
  functions := [⟨1, [], [⟨4, .op (.fixed (.refFunc 1))⟩, ⟨6, .op (.fixed (.call 2))⟩], 8⟩]
  tables := [⟨.funcref, ⟨2, some 2⟩⟩]
  memories := [⟨⟨65536, some 65536⟩⟩]
  globals := []
  segments := [⟨.funcref, .active 0, [1, 0]⟩]

theorem checkDeclarations_callsMissing :
    callsMissing.imports.length + callsMissing.functions.length < UInt32.size ∧
      callsMissing.WellDeclared ∧ callsMissing.functionType 1 = .ok ⟨[], []⟩ ∧
      ∃ d, Id.run (callsMissing.report (fun _ => pure ()) {}) = ⟨[.rejected], [d]⟩ ∧
        ∃ b ∈ callsMissing.functions, callsMissing.checkBody {} b = .error d := by
  obtain ⟨hiff, h⟩ := checkDeclarations_wellDeclared callsMissing (by decide)
  have hok : callsMissing.checkDeclarations = .ok () := rfl
  obtain ⟨hknown, hbodies⟩ := h hok
  exact ⟨by decide, hiff.1 hok, hknown.defined 1 0 _ rfl rfl, _, rfl,
    (hbodies {}).2 _ (List.mem_singleton_self _)⟩

end Module

end WasmCheck
