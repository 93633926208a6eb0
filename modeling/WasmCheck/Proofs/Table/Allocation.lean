import WasmCheck.Proofs.Module.WellDeclared
import WasmCheck.Proofs.Table.Agreement
import WasmCheck.Proofs.Table.History

/-!
# Allocation

A store is allocated for a module: its tables, all null, and its segments, whose items are
references to the functions they list. Every listed function is one of the module, but nothing makes
the type of a segment that of its items: an `externref` segment may list functions, and to
initialise a table from it is a type error. Segments that are `Honest` keep their promise, and then
an initialisation that the checker accepts succeeds or traps, whatever has become of the store.
-/

namespace WasmCheck

open Attempt

namespace ElementSegment

def items (g : ElementSegment) : List Value := g.functions.map fun f => .funcref (some f)

/-- If the segment has items at all, its type is theirs. -/
def Honest (g : ElementSegment) : Prop := g.type = .funcref ∨ g.functions = []

/-- The segment with the type of its items. -/
def corrected (g : ElementSegment) : ElementSegment :=
  if g.functions = [] then g else { g with type := .funcref }

variable {g : ElementSegment}

theorem forall_items_iff : (∀ v ∈ g.items, v.type = g.type.toValueType) ↔ g.Honest := by
  have hfunc (f : UInt32) : (Value.funcref (some f)).type = g.type.toValueType ↔
      g.type = .funcref := by
    cases g.type <;> simp [Value.type, RefType.toValueType]
  simp only [items, List.forall_mem_map, hfunc, Honest]
  cases g.functions with
  | nil => simp
  | cons f fs => simpa using fun h _ _ => h

theorem honest_corrected (g : ElementSegment) : g.corrected.Honest := by
  unfold corrected
  split
  · next h => exact .inr h
  · exact .inl rfl

theorem items_corrected (g : ElementSegment) : g.corrected.items = g.items := by
  unfold corrected
  split <;> rfl

theorem Honest.corrected_eq (h : g.Honest) : g.corrected = g := by
  unfold corrected
  split
  · rfl
  · next hf =>
    obtain ⟨type, mode, functions⟩ := g
    cases h.resolve_right hf
    rfl

end ElementSegment

def Table.initial (t : TableType) : Table :=
  ⟨t, Array.replicate t.limits.min.toNat t.element.null⟩

theorem Table.ofType_eq_ok {t : TableType} (hl : ∀ max ∈ t.limits.max, t.limits.min ≤ max)
    (hm : t.limits.min ≤ maxTableSize) : ofType t = .ok (initial t) := by
  rw [ofType, filled, Limits.check_eq_ok_iff.2 hl,
    checkElement_eq_ok_iff.2 (Value.type_null t.element)]
  simp [bind, Except.bind, UInt32.not_lt.2 hm]
  rfl

def Module.corrected (m : Module) : Module :=
  { m with segments := m.segments.map (·.corrected) }

namespace Store

def addTables : List TableType → Exec Unit
  | [] => pure ()
  | t :: ts => do
    let _ ← addTable t
    addTables ts

def addSegments : List ElementSegment → Exec Unit
  | [] => pure ()
  | g :: gs => do
    let _ ← addSegment g.items
    addSegments gs

def allocate (m : Module) : Exec Unit := do
  addTables m.tables
  addSegments m.segments

theorem run_addTables {ts : List TableType}
    (hl : ∀ t ∈ ts, ∀ max ∈ t.limits.max, t.limits.min ≤ max)
    (hm : ∀ t ∈ ts, t.limits.min ≤ maxTableSize) (s : Store) :
    run (addTables ts) s = (.ok (), { s with tables := s.tables ++ ts.map .initial }) := by
  induction ts generalizing s with
  | nil => simp [addTables]
  | cons t ts ih =>
    obtain ⟨hl, hls⟩ := List.forall_mem_cons.1 hl
    obtain ⟨hm, hms⟩ := List.forall_mem_cons.1 hm
    have hadd : run (addTable t) s = (.ok (UInt32.ofNatClamp s.tables.length),
        { s with tables := s.tables ++ [.initial t] }) := by
      rw [addTable, Table.ofType_eq_ok hl hm]
      rfl
    rw [addTables, run_bind_of_ok hadd, ih hls hms, List.append_assoc]
    rfl

theorem run_addSegments (gs : List ElementSegment) (s : Store) :
    run (addSegments gs) s =
      (.ok (), { s with segments := s.segments ++ gs.map (·.items) }) := by
  induction gs generalizing s with
  | nil => simp [addSegments]
  | cons g gs ih =>
    have hadd : run (addSegment g.items) s = (.ok (UInt32.ofNatClamp s.segments.length),
        { s with segments := s.segments ++ [g.items] }) := rfl
    rw [addSegments, run_bind_of_ok hadd, ih, List.append_assoc]
    rfl

theorem run_allocate {m : Module} (hl : ∀ t ∈ m.tables, ∀ max ∈ t.limits.max, t.limits.min ≤ max)
    (hm : ∀ t ∈ m.tables, t.limits.min ≤ maxTableSize) :
    run (allocate m) empty = (.ok (), ⟨m.tables.map .initial, m.segments.map (·.items), []⟩) := by
  rw [allocate, run_bind_of_ok (run_addTables hl hm empty), run_addSegments]
  rfl

/-- The store matches the module whose segments have the types of their items. -/
theorem matches_corrected {m : Module}
    (hl : ∀ t ∈ m.tables, ∀ max ∈ t.limits.max, t.limits.min ≤ max)
    (hm : ∀ t ∈ m.tables, t.limits.min ≤ maxTableSize) :
    Matches m.corrected ⟨m.tables.map .initial, m.segments.map (·.items), []⟩ where
  tables i t ht := ⟨.initial t, by rw [List.getElem?_map]; exact congrArg _ ht, rfl⟩
  segments i g hg := by
    rw [Module.corrected, List.getElem?_map, Option.map_eq_some_iff] at hg
    obtain ⟨g, hg, rfl⟩ := hg
    refine ⟨g.items, by rw [List.getElem?_map, hg]; rfl, ?_⟩
    rw [← g.items_corrected]
    exact ElementSegment.forall_items_iff.2 g.honest_corrected
  built u hu := by
    obtain ⟨t, ht, rfl⟩ := List.mem_map.1 hu
    exact .filled (Table.ofType_eq_ok (hl t ht) (hm t ht))

theorem Matches.later {m : Module} {s s' : Store} (h : s.Matches m) (hs : s.Later s')
    (hb : s'.Built) : s'.Matches m where
  tables i t ht := by
    obtain ⟨u, hu, he⟩ := h.tables i t ht
    obtain ⟨u', hu', hlater⟩ := hs.tables i u hu
    exact ⟨u', hu', by rw [hlater.type, he]⟩
  segments i g hg := by
    obtain ⟨items, hi, hv⟩ := h.segments i g hg
    rcases hs.segments i items hi with hi | hi
    · exact ⟨items, hi, hv⟩
    · exact ⟨[], hi, by simp⟩
  built := hb

end Store

/-! ## Initialisation -/

def Store.SucceedsOrTraps (r : Except Diagnostic (List Value) × Store) : Prop :=
  (∃ vs, r.1 = .ok vs) ∨ Traps r

namespace TableOp

variable {m : Module} {s : Store} {o : TableOp} {i e : UInt32} {g : ElementSegment}
  {ps rs : List ValueType}

/-- On operands of the right types, in a store that matches the module. -/
theorem invoke_of_matches (ho : o.HasType m ps rs) (hs : s.Matches m) {args : List Value}
    (hargs : args.map Value.type = ps) : Store.SucceedsOrTraps (o.invoke args s) := by
  have hholds : Store.Holds m ps.reverse [] { s with stack := args.reverse } :=
    ⟨hs.of_stack _, args.reverse, (List.append_nil _).symm, by rw [List.map_reverse, hargs]⟩
  have hpost := post_execute ho hholds
  unfold invoke
  split
  · exact .inl ⟨_, rfl⟩
  · next hr => exact .inr ⟨_, rfl, decide_eq_true (hpost.of_error hr)⟩

theorem hasType_corrected (hg : m.segments[e.toNat]? = some g) (hh : g.Honest)
    (h : (init i e).HasType m ps rs) : (init i e).HasType m.corrected ps rs := by
  cases h with
  | init hi hj hsame =>
    rw [hg] at hj
    cases hj
    refine .init hi ?_ hsame
    rw [Module.corrected, List.getElem?_map, hg, Option.map_some, hh.corrected_eq]

theorem hasType_of_check {k : BodyChecker}
    (h : (k.check (.op (.fixed (.table (init i e))))).1 = .ok ()) :
    (init i e).HasType k.context.module [.i32, .i32, .i32] [] := by
  obtain ⟨⟨ps, rs⟩, ht⟩ := FixedOp.post_lookup.of_fst_ok h
  have htype : (init i e).HasType k.context.module ps rs := type_eq_ok_iff.1 ht
  cases htype with
  | init hi hj hsame => exact .init hi hj hsame

end TableOp

namespace Store

/-- For a module whose declarations are accepted a store can be allocated. A segment has items of
its type if it is honest, and only then. Whatever becomes of the store, an initialisation from an
honest segment that a checker accepts succeeds or traps. -/
theorem allocate_honest (m : Module) (hd : m.checkDeclarations = .ok ())
    (hm : ∀ t ∈ m.tables, t.limits.min ≤ maxTableSize) :
    ∃ s, run (allocate m) empty = (.ok (), s) ∧ s.tables.map (·.type) = m.tables ∧
      s.segments = m.segments.map (·.items) ∧
      (∀ g ∈ m.segments, (∀ v ∈ g.items, v.type = g.type.toValueType) ↔ g.Honest) ∧
      ∀ (i e : UInt32) (g : ElementSegment) (k : BodyChecker), m.segments[e.toNat]? = some g →
        g.Honest → k.context.module = m →
        (k.check (.op (.fixed (.table (.init i e))))).1 = .ok () →
        ∀ (as : List Action) (dst src len : UInt32), SucceedsOrTraps
          ((TableOp.init i e).invoke [.i32 dst, .i32 src, .i32 len] (s.after as)) := by
  have hl := m.limits_of_checkDeclarations hd
  have hmatch := matches_corrected hl hm
  refine ⟨_, run_allocate hl hm, ?_, rfl, fun g _ => g.forall_items_iff,
    fun i e g k hg hh hk hok as dst src len => ?_⟩
  · rw [List.map_map]
    exact List.map_id _
  · have htype := TableOp.hasType_of_check hok
    rw [hk] at htype
    refine TableOp.invoke_of_matches (TableOp.hasType_corrected hg hh htype) ?_ rfl
    exact hmatch.later (later_after _ as) (built_after hmatch.built as)

/-- A table and a segment of one type. The only function is listed in the segment, and initialises
the table from it. -/
def selfListed (type : RefType) : Module where
  types := [⟨[], []⟩]
  imports := []
  functions := [.withCode (.ofType 0) 0 [.op (.fixed (.i32Const 0)), .op (.fixed (.i32Const 0)),
    .op (.fixed (.i32Const 1)), .op (.fixed (.table (.init 0 0))), .end_]]
  tables := [⟨type, ⟨1, none⟩⟩]
  memories := []
  globals := []
  segments := [⟨type, .passive, [0]⟩]

/-- The checker of that function when it comes to the initialisation. -/
def selfListedChecker (type : RefType) : BodyChecker :=
  (BodyChecker.initial (selfListed type) ⟨[], []⟩ [] {}).feed
    [.op (.fixed (.i32Const 0)), .op (.fixed (.i32Const 0)), .op (.fixed (.i32Const 1))]

/-- Once a segment has been dropped, it traps to initialise a table from it. -/
theorem allocate_honest_funcref :
    (selfListed .funcref).checkDeclarations = .ok () ∧
      (∀ t ∈ (selfListed .funcref).tables, t.limits.min ≤ maxTableSize) ∧
      ∃ s, run (allocate (selfListed .funcref)) empty = (.ok (), s) ∧
        SucceedsOrTraps ((TableOp.init 0 0).invoke [.i32 0, .i32 0, .i32 1] s) ∧
        SucceedsOrTraps ((TableOp.init 0 0).invoke [.i32 0, .i32 0, .i32 1]
          (s.after [.dropSegment 0])) := by
  have hm : ∀ t ∈ (selfListed .funcref).tables, t.limits.min ≤ maxTableSize := by decide
  obtain ⟨s, hs, -, -, -, hinit⟩ := allocate_honest (selfListed .funcref) rfl hm
  have hafter := hinit 0 0 _ (selfListedChecker .funcref) rfl (.inl rfl) rfl rfl
  exact ⟨rfl, hm, s, hs, hafter [] 0 0 1, hafter [.dropSegment 0] 0 0 1⟩

/-- The whole module is accepted, but the item of its segment is not an `externref`. -/
theorem allocate_externref :
    (selfListed .externref).check {} = .ok () ∧
      (selfListed .externref).checkDeclarations = .ok () ∧
      (∀ t ∈ (selfListed .externref).tables, t.limits.min ≤ maxTableSize) ∧
      ((selfListedChecker .externref).check (.op (.fixed (.table (.init 0 0))))).1 = .ok () ∧
      ∃ s, run (allocate (selfListed .externref)) empty = (.ok (), s) ∧
        s.segments = [[.funcref (some 0)]] ∧
        ((TableOp.init 0 0).invoke [.i32 0, .i32 0, .i32 1] s).1 =
          .error (.unlocated (.elementType .externref .funcref)) ∧
        (Error.elementType .externref .funcref).category = .type :=
  ⟨rfl, rfl, by decide, rfl, _, rfl, rfl, rfl, rfl⟩

end Store

end WasmCheck
