import WasmCheck.Types.Limits
import WasmCheck.Locals
import WasmCheck.Instr.Basic

/-!
# Modules

What is left of a module once it has been decoded: one list for each index space. Imported functions
come before the defined ones in the space of functions; the other spaces list their imports first.

An index is good if its space has an entry there. Adding entries at the end of a space keeps every
earlier look-up.
-/

namespace WasmCheck

/-- An instruction and the offset of its opcode. -/
structure Located where
  offset : Nat
  instr : Instr
deriving DecidableEq, Repr

def Located.consecutive (start : Nat) : List Instr → List Located
  | [] => []
  | i :: is => ⟨start, i⟩ :: consecutive (start + 1) is

structure FunctionBody where
  typeIndex : UInt32
  locals : List LocalGroup
  code : List Located
  /-- The offset just past the last instruction. -/
  endOffset : Nat
deriving DecidableEq, Repr

namespace FunctionBody

def ofType (typeIndex : UInt32) : FunctionBody := ⟨typeIndex, [], [], 0⟩

def withLocals (b : FunctionBody) (g : LocalGroup) : FunctionBody :=
  { b with locals := b.locals ++ [g] }

/-- Adds instructions behind the present ones. The end moves past the greatest offset. -/
def append (b : FunctionBody) (code : List Located) : FunctionBody :=
  { b with
    code := b.code ++ code
    endOffset := code.foldl (fun e l => max e (l.offset + 1)) b.endOffset }

def withInstr (b : FunctionBody) (offset : Nat) (i : Instr) : FunctionBody :=
  b.append [⟨offset, i⟩]

def withCode (b : FunctionBody) (start : Nat) (code : List Instr) : FunctionBody :=
  b.append (Located.consecutive start code)

end FunctionBody

inductive SegmentMode where
  /-- It waits for a table to be initialised from it. -/
  | passive
  /-- It is copied into a table at instantiation. -/
  | active (table : UInt32)
  /-- It only declares that references to its functions are taken. -/
  | declarative
deriving DecidableEq, Repr, Inhabited

structure ElementSegment where
  type : RefType
  mode : SegmentMode
  functions : List UInt32
deriving DecidableEq, Repr, Inhabited

structure Module where
  types : List FuncType
  /-- The type indices of the imported functions. -/
  imports : List UInt32
  functions : List FunctionBody
  tables : List TableType
  memories : List MemoryType
  globals : List GlobalType
  segments : List ElementSegment
deriving DecidableEq, Repr

/-- The number of entries of an index space, as an index. -/
def spaceSize {α : Type} (entries : List α) : UInt32 := UInt32.ofNatClamp entries.length

def lastIndex {α : Type} (entries : List α) : UInt32 := spaceSize entries - 1

theorem toNat_spaceSize {α : Type} {entries : List α} (h : entries.length < UInt32.size) :
    (spaceSize entries).toNat = entries.length :=
  UInt32.toNat_ofNatClamp_of_lt h

theorem toNat_lastIndex {α : Type} {entries : List α} {a : α}
    (h : (entries ++ [a]).length < UInt32.size) :
    (lastIndex (entries ++ [a])).toNat = entries.length := by
  have hsize := toNat_spaceSize h
  rw [List.length_append, List.length_singleton] at hsize
  have hone : 1 ≤ spaceSize (entries ++ [a]) :=
    UInt32.le_iff_toNat_le.2 (hsize ▸ Nat.le_add_left ..)
  rw [lastIndex, UInt32.toNat_sub_of_le _ _ hone, hsize]
  exact Nat.add_sub_cancel ..

/-- The entry of an index space. The error names the space and its size. -/
def lookup {α : Type} (space : String) (entries : List α) (i : UInt32) : Except Error α :=
  match entries[i.toNat]? with
  | some a => .ok a
  | none => .error (.indexOutOfRange space i (spaceSize entries))

theorem lookup_eq_ok_iff {α : Type} {space : String} {entries : List α} {i : UInt32} {a : α} :
    lookup space entries i = .ok a ↔ entries[i.toNat]? = some a := by
  unfold lookup
  split <;> simp_all

theorem lookup_isOk_iff {α : Type} {space : String} {entries : List α} {i : UInt32} :
    (∃ a, lookup space entries i = .ok a) ↔ i.toNat < entries.length := by
  simp only [lookup_eq_ok_iff, List.getElem?_eq_some_iff]
  exact ⟨fun ⟨_, hi, _⟩ => hi, fun hi => ⟨_, hi, rfl⟩⟩

theorem lookup_eq_error_iff {α : Type} {space : String} {entries : List α} {i : UInt32}
    {e : Error} :
    lookup space entries i = .error e ↔
      entries.length ≤ i.toNat ∧ e = .indexOutOfRange space i (spaceSize entries) := by
  unfold lookup
  split <;> rename_i h
  · have := (List.getElem?_eq_some_iff.1 h).1
    simp only [reduceCtorEq, false_iff, not_and]
    omega
  · have := List.getElem?_eq_none_iff.1 h
    simp [this, eq_comm]

theorem lookup_append {α : Type} {space : String} {entries more : List α} {i : UInt32} {a : α}
    (h : lookup space entries i = .ok a) : lookup space (entries ++ more) i = .ok a := by
  rw [lookup_eq_ok_iff] at *
  rw [List.getElem?_append_left (List.getElem?_eq_some_iff.1 h).1, h]

namespace Module

def empty : Module := ⟨[], [], [], [], [], [], []⟩

/-- The type indices of all functions, the imported ones first. -/
def functionSpace (m : Module) : List UInt32 := m.imports ++ m.functions.map (·.typeIndex)

def functionCount (m : Module) : UInt32 := spaceSize m.functionSpace

/-! ## Look-ups -/

def funcType (m : Module) (i : UInt32) : Except Error FuncType := lookup "type" m.types i

def functionType (m : Module) (i : UInt32) : Except Error FuncType := do
  m.funcType (← lookup "function" m.functionSpace i)

def table (m : Module) (i : UInt32) : Except Error TableType := lookup "table" m.tables i

def memory (m : Module) (i : UInt32) : Except Error MemoryType := lookup "memory" m.memories i

def global (m : Module) (i : UInt32) : Except Error GlobalType := lookup "global" m.globals i

def segment (m : Module) (i : UInt32) : Except Error ElementSegment :=
  lookup "elem segment" m.segments i

/-! ## Adding entries

Each operation gives the index of the new entry, which is the last one of its space. A function is
counted behind the imports, so that its index holds only as long as nothing more is imported. -/

def addType (m : Module) (t : FuncType) : UInt32 × Module :=
  let m := { m with types := m.types ++ [t] }
  (lastIndex m.types, m)

def importFunction (m : Module) (typeIndex : UInt32) : UInt32 × Module :=
  let m := { m with imports := m.imports ++ [typeIndex] }
  (lastIndex m.imports, m)

def addFunction (m : Module) (b : FunctionBody) : UInt32 × Module :=
  let m := { m with functions := m.functions ++ [b] }
  (m.functionCount - 1, m)

def addTable (m : Module) (t : TableType) : UInt32 × Module :=
  let m := { m with tables := m.tables ++ [t] }
  (lastIndex m.tables, m)

def addMemory (m : Module) (t : MemoryType) : UInt32 × Module :=
  let m := { m with memories := m.memories ++ [t] }
  (lastIndex m.memories, m)

def addGlobal (m : Module) (t : GlobalType) : UInt32 × Module :=
  let m := { m with globals := m.globals ++ [t] }
  (lastIndex m.globals, m)

def addSegment (m : Module) (s : ElementSegment) : UInt32 × Module :=
  let m := { m with segments := m.segments ++ [s] }
  (lastIndex m.segments, m)

end Module

end WasmCheck
