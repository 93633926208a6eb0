import WasmCheck.Proofs.Module.WellDeclared

/-!
# Indices stay valid

A module is put together entry by entry. What each space lists afterwards is what was added for it,
in order, as long as no function is imported behind a defined one. So an index that was given out
once names its entry for good, and all others name none.
-/

namespace WasmCheck

inductive Space where
  | types
  | functions
  | tables
  | memories
  | globals
  | segments
deriving DecidableEq, Repr

/-- What a space lists. A function is listed by the index of its type. -/
def Space.Entry : Space → Type
  | types => FuncType
  | functions => UInt32
  | tables => TableType
  | memories => MemoryType
  | globals => GlobalType
  | segments => ElementSegment

inductive Addition where
  | type (t : FuncType)
  | imported (typeIndex : UInt32)
  | function (b : FunctionBody)
  | table (t : TableType)
  | memory (t : MemoryType)
  | global (t : GlobalType)
  | segment (s : ElementSegment)
deriving DecidableEq, Repr

namespace Addition

def space : Addition → Space
  | type _ => .types
  | imported _ | function _ => .functions
  | table _ => .tables
  | memory _ => .memories
  | global _ => .globals
  | segment _ => .segments

def entry : (a : Addition) → a.space.Entry
  | type t => t
  | imported typeIndex => typeIndex
  | function b => b.typeIndex
  | table t => t
  | memory t => t
  | global t => t
  | segment s => s

def entries (a : Addition) (s : Space) : List s.Entry :=
  if h : a.space = s then [h ▸ a.entry] else []

def isImport : Addition → Bool
  | imported _ => true
  | _ => false

def isDefinition : Addition → Bool
  | function _ => true
  | _ => false

/-- No function is imported behind a defined one. -/
def ImportsFirst (as : List Addition) : Prop :=
  as.Pairwise fun a b => a.isDefinition → ¬b.isImport

instance (as : List Addition) : Decidable (ImportsFirst as) :=
  inferInstanceAs (Decidable (List.Pairwise _ as))

def count (as : List Addition) (s : Space) : Nat := as.countP (·.space = s)

theorem count_append_cons (before after : List Addition) (a : Addition) :
    count (before ++ a :: after) a.space = count before a.space + 1 + count after a.space := by
  simp only [count, List.countP_append, List.countP_cons, decide_true, if_true]
  omega

theorem entries_space (a : Addition) : a.entries a.space = [a.entry] := by
  simp [entries]

theorem length_flatMap_entries (as : List Addition) (s : Space) :
    (as.flatMap (·.entries s)).length = count as s := by
  induction as with
  | nil => rfl
  | cons a as ih =>
    rw [List.flatMap_cons, List.length_append, ih, count, count, List.countP_cons, Nat.add_comm]
    by_cases h : a.space = s <;> simp [entries, h]

end Addition

namespace Module

open Addition

def add (m : Module) : Addition → UInt32 × Module
  | .type t => m.addType t
  | .imported typeIndex => m.importFunction typeIndex
  | .function b => m.addFunction b
  | .table t => m.addTable t
  | .memory t => m.addMemory t
  | .global t => m.addGlobal t
  | .segment s => m.addSegment s

def addAll (m : Module) (as : List Addition) : Module := as.foldl (fun m a => (m.add a).2) m

def entries (m : Module) : (s : Space) → List s.Entry
  | .types => m.types
  | .functions => m.functionSpace
  | .tables => m.tables
  | .memories => m.memories
  | .globals => m.globals
  | .segments => m.segments

variable {m : Module} {a : Addition}

/-! ## Adding entries -/

/-- An import comes in front of all defined functions, so that it is the last one only if there are
none. -/
theorem functionSpace_importFunction (h : m.functions = []) (i : UInt32) :
    (m.importFunction i).2.functionSpace = m.functionSpace ++ [i] := by
  simp [importFunction, functionSpace, h]

theorem functionSpace_addFunction (m : Module) (b : FunctionBody) :
    (m.addFunction b).2.functionSpace = m.functionSpace ++ [b.typeIndex] := by
  simp [addFunction, functionSpace]

theorem index_importFunction (h : m.functions = []) (i : UInt32) :
    (m.importFunction i).1 = lastIndex (m.importFunction i).2.functionSpace := by
  simp [importFunction, functionSpace, h]

theorem entries_add_of_ne {s : Space} (hs : a.space ≠ s) :
    (m.add a).2.entries s = m.entries s := by
  cases a <;> cases s <;> first | rfl | exact absurd rfl hs

theorem entries_add_space (h : a.isImport → m.functions = []) :
    (m.add a).2.entries a.space = m.entries a.space ++ [a.entry] := by
  cases a with
  | imported i => exact functionSpace_importFunction (h rfl) i
  | function b => exact functionSpace_addFunction m b
  | type | table | memory | global | segment => rfl

/-- A call adds its entry behind those of its space and leaves the other spaces alone. -/
theorem entries_add (h : a.isImport → m.functions = []) (s : Space) :
    (m.add a).2.entries s = m.entries s ++ a.entries s := by
  by_cases hs : a.space = s
  · subst hs
    rw [entries_add_space h, entries_space]
  · rw [entries_add_of_ne hs, Addition.entries, dif_neg hs, List.append_nil]

theorem index_add (h : a.isImport → m.functions = []) :
    (m.add a).1 = lastIndex (m.entries a.space ++ [a.entry]) := by
  rw [← entries_add_space h]
  cases a with
  | imported i => exact index_importFunction (h rfl) i
  | type | function | table | memory | global | segment => rfl

theorem functions_add (h : a.isDefinition = false) : (m.add a).2.functions = m.functions := by
  cases a with
  | function => cases h
  | type | imported | table | memory | global | segment => rfl

/-! ## Runs of calls -/

theorem functions_addAll {as : List Addition} (h : ∀ a ∈ as, a.isDefinition = false) :
    (m.addAll as).functions = m.functions := by
  induction as generalizing m with
  | nil => rfl
  | cons a as ih =>
    obtain ⟨ha, has⟩ := List.forall_mem_cons.1 h
    exact (ih has).trans (functions_add ha)

theorem entries_addAll {as : List Addition} (h : ImportsFirst as)
    (hm : m.functions = [] ∨ ∀ a ∈ as, ¬a.isImport) (s : Space) :
    (m.addAll as).entries s = m.entries s ++ as.flatMap (·.entries s) := by
  induction as generalizing m with
  | nil => exact (List.append_nil _).symm
  | cons a as ih =>
    obtain ⟨ha, has⟩ := List.pairwise_cons.1 h
    have hadd : a.isImport → m.functions = [] := fun hi =>
      hm.resolve_right fun hnone => hnone a List.mem_cons_self hi
    have hm' : (m.add a).2.functions = [] ∨ ∀ b ∈ as, ¬b.isImport := by
      by_cases hd : a.isDefinition
      · exact .inr fun b hb => ha b hb hd
      · rw [functions_add (Bool.eq_false_iff.2 hd)]
        exact hm.imp_right fun hnone b hb => hnone b (List.mem_cons_of_mem _ hb)
    show ((m.add a).2.addAll as).entries s = _
    rw [ih has hm', entries_add hadd, List.flatMap_cons, List.append_assoc]

/-! ## Look-ups -/

/-- The index leads to what was added. A function is known by its type, which is looked up under the
index that came with it. -/
def Finds (m : Module) (i : UInt32) : Addition → Prop
  | .type t => m.funcType i = .ok t
  | .imported typeIndex => m.functionType i = m.funcType typeIndex
  | .function b => m.functionType i = m.funcType b.typeIndex
  | .table t => m.table i = .ok t
  | .memory t => m.memory i = .ok t
  | .global t => m.global i = .ok t
  | .segment s => m.segment i = .ok s

/-- The index leads to nothing in the space, which is said to have `n` entries. -/
def Misses (m : Module) (i n : UInt32) : Space → Prop
  | .types => m.funcType i = .error (.indexOutOfRange "type" i n)
  | .functions => m.functionType i = .error (.indexOutOfRange "function" i n)
  | .tables => m.table i = .error (.indexOutOfRange "table" i n)
  | .memories => m.memory i = .error (.indexOutOfRange "memory" i n)
  | .globals => m.global i = .error (.indexOutOfRange "global" i n)
  | .segments => m.segment i = .error (.indexOutOfRange "elem segment" i n)

theorem finds_of_getElem? {i : UInt32} (h : (m.entries a.space)[i.toNat]? = some a.entry) :
    m.Finds i a := by
  cases a with
  | imported | function => exact functionType_eq h
  | type | table | memory | global | segment => exact lookup_eq_ok_iff.2 h

theorem misses_of_length_le {s : Space} {i : UInt32} (h : (m.entries s).length ≤ i.toNat) :
    m.Misses i (spaceSize (m.entries s)) s := by
  cases s with
  | functions =>
    have hmiss : lookup "function" m.functionSpace i =
        .error (.indexOutOfRange "function" i m.functionCount) := lookup_eq_error_iff.2 ⟨h, rfl⟩
    show m.functionType i = _
    rw [functionType, hmiss]
    rfl
  | types | tables | memories | globals | segments => exact lookup_eq_error_iff.2 ⟨h, rfl⟩

/-! ## Histories -/

theorem entries_addAll_empty {as : List Addition} (h : ImportsFirst as) (s : Space) :
    (empty.addAll as).entries s = as.flatMap (·.entries s) := by
  rw [entries_addAll h (.inl rfl)]
  cases s <;> rfl

theorem length_entries_addAll {as : List Addition} (h : ImportsFirst as) (s : Space) :
    ((empty.addAll as).entries s).length = count as s := by
  rw [entries_addAll_empty h, length_flatMap_entries]

section History
variable {before after : List Addition} (h : ImportsFirst (before ++ a :: after))
include h

theorem functions_addAll_of_isImport (ha : a.isImport) : (empty.addAll before).functions = [] := by
  obtain ⟨-, -, hcross⟩ := List.pairwise_append.1 h
  refine functions_addAll fun b hb => Bool.eq_false_iff.2 fun hd => ?_
  exact hcross b hb a List.mem_cons_self hd ha

theorem toNat_index_add (hsize : count (before ++ a :: after) a.space < UInt32.size) :
    ((empty.addAll before).add a).1.toNat = count before a.space := by
  have hlength := length_entries_addAll (List.pairwise_append.1 h).1 a.space
  rw [count_append_cons] at hsize
  rw [index_add (functions_addAll_of_isImport h), toNat_lastIndex, hlength]
  rw [List.length_append, hlength, List.length_singleton]
  omega

theorem getElem?_entries_addAll :
    ((empty.addAll (before ++ a :: after)).entries a.space)[count before a.space]? =
      some a.entry := by
  rw [entries_addAll_empty h, List.flatMap_append, List.flatMap_cons, entries_space,
    ← length_flatMap_entries, List.getElem?_append_right (Nat.le_refl _), Nat.sub_self]
  rfl

end History

/-- Calls give out the indices of a space one by one. Whatever is added later, an index that was
given out leads to what was added then, and all other indices are refused. -/
theorem indices_valid {as : List Addition} (h : ImportsFirst as)
    (hsize : ∀ s, count as s < UInt32.size) :
    (∀ before a after, as = before ++ a :: after →
      ((empty.addAll before).add a).1.toNat = count before a.space ∧
        (empty.addAll as).Finds ((empty.addAll before).add a).1 a) ∧
      ∀ s i, count as s ≤ i.toNat →
        ∃ n : UInt32, n.toNat = count as s ∧ (empty.addAll as).Misses i n s := by
  have hlength (s : Space) := length_entries_addAll h s
  refine ⟨?_, fun s i hi => ⟨_, ?_, misses_of_length_le ?_⟩⟩
  · rintro before a after rfl
    have hindex := toNat_index_add h (hsize a.space)
    exact ⟨hindex, finds_of_getElem? (hindex ▸ getElem?_entries_addAll h)⟩
  · rw [toNat_spaceSize] <;> rw [hlength]
    exact hsize s
  · rwa [hlength]

/-- The second function that is defined is of a type that nobody adds. -/
def fewAdditions : List Addition :=
  [.imported 1, .table ⟨.funcref, ⟨1, none⟩⟩, .type ⟨[.i32], [.i32]⟩, .function (.ofType 0),
    .type ⟨[], []⟩, .function (.ofType 7), .segment ⟨.funcref, .active 0, [2, 0]⟩]

theorem indices_valid_fewAdditions :
    ImportsFirst fewAdditions ∧ (∀ s, count fewAdditions s < UInt32.size) ∧
      ((empty.addAll (fewAdditions.take 5)).add (.function (.ofType 7))).1.toNat = 2 ∧
      (empty.addAll fewAdditions).functionType 2 = .error (.indexOutOfRange "type" 7 2) ∧
      (empty.addAll fewAdditions).functionType 0 = .ok ⟨[], []⟩ ∧
      ∃ n : UInt32, n.toNat = 3 ∧ (empty.addAll fewAdditions).Misses 3 n .functions := by
  have hfirst : ImportsFirst fewAdditions := by decide
  have hsize : ∀ s, count fewAdditions s < UInt32.size := fun s => by cases s <;> decide
  obtain ⟨hgiven, hmisses⟩ := indices_valid hfirst hsize
  obtain ⟨hindex, hfinds⟩ := hgiven (fewAdditions.take 5) (.function (.ofType 7)) _ rfl
  exact ⟨hfirst, hsize, hindex, hfinds, (hgiven [] (.imported 1) _ rfl).2,
    hmisses .functions 3 (by decide)⟩

end Module

end WasmCheck
