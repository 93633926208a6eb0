import WasmCheck.Instr.Type
import WasmCheck.Stack.Basic
import Mathlib.Data.List.Forall2

/-!
# The type system

Code is typed here as the WebAssembly specification does it, without a checker: code is nested, and
`Typed Γ code ss ts` says that it takes operands of the types `ss` to operands of the types `ts`,
the last one on top. An operand type is a value type, or the bottom type, which is below all of them
and which `Operand.unknown` stands for. Sequences compose, may be used under a prefix that they do
not touch (`frame`), and their types may be weakened (`sub`). Code behind a jump has every type.
-/

namespace WasmCheck

open Operand (known unknown)

/-- `o` may stand where `p` is asked for. -/
inductive Operand.Sub : Operand → Operand → Prop where
  | refl (o : Operand) : Sub o o
  | bottom (o : Operand) : Sub unknown o

abbrev SubAll : List Operand → List Operand → Prop := List.Forall₂ Operand.Sub

theorem Operand.Sub.trans {o p q : Operand} (h : Sub o p) (h' : Sub p q) : Sub o q := by
  cases h with
  | refl => exact h'
  | bottom => exact .bottom q

theorem SubAll.refl (os : List Operand) : SubAll os os := List.forall₂_same.2 fun o _ => .refl o

theorem SubAll.append {os ps os' ps' : List Operand} (h : SubAll os ps) (h' : SubAll os' ps') :
    SubAll (os ++ os') (ps ++ ps') := List.rel_append h h'

theorem SubAll.reverse {os ps : List Operand} (h : SubAll os ps) : SubAll os.reverse ps.reverse :=
  List.forall₂_reverse_iff.2 h

/-! ## Nested code -/

inductive Node where
  | op (o : Op)
  | block (t : BlockType) (body : List Node)
  | loop (t : BlockType) (body : List Node)
  | ifThen (t : BlockType) (body : List Node)
  | ifElse (t : BlockType) (body other : List Node)

abbrev Code := List Node

mutual

/-- The instructions of a node in order, with the markers that delimit it. -/
def Node.flat : Node → List Instr
  | .op o => [.op o]
  | .block t body => .block t :: flatAll body ++ [.end_]
  | .loop t body => .loop t :: flatAll body ++ [.end_]
  | .ifThen t body => .if_ t :: flatAll body ++ [.end_]
  | .ifElse t body other => .if_ t :: flatAll body ++ .else_ :: flatAll other ++ [.end_]

def flatAll : List Node → List Instr
  | [] => []
  | n :: ns => n.flat ++ flatAll ns

end

@[simp] theorem flatAll_nil : flatAll [] = [] := rfl

@[simp] theorem flatAll_append (a b : Code) : flatAll (a ++ b) = flatAll a ++ flatAll b := by
  induction a with
  | nil => rfl
  | cons n ns ih => rw [List.cons_append, flatAll, flatAll, ih, List.append_assoc]

@[simp] theorem flatAll_singleton (n : Node) : flatAll [n] = n.flat := by
  rw [flatAll, flatAll_nil, List.append_nil]

/-! ## Scopes -/

def Locals.types (l : Locals) : List ValueType :=
  l.params ++ l.groups.flatMap fun g => List.replicate g.count.toNat g.type

structure Scope where
  module : Module
  locals : List ValueType
  /-- What a branch to each enclosing construct carries, the innermost first. -/
  labels : List (List ValueType)
  /-- The results of the function. -/
  results : List ValueType

def Scope.inside (Γ : Scope) (ts : List ValueType) : Scope := { Γ with labels := ts :: Γ.labels }

def Scope.ofBody (m : Module) (t : FuncType) (groups : List LocalGroup) : Scope :=
  ⟨m, (Locals.mk t.params groups).types, [t.results], t.results⟩

abbrev knowns (ts : List ValueType) : List Operand := ts.map known

theorem reverse_knowns (ts : List ValueType) : (knowns ts).reverse = knowns ts.reverse :=
  List.map_reverse.symm

/-- No value type is below another one. -/
theorem knowns_inj {ts us : List ValueType} (h : SubAll (knowns ts) (knowns us)) : ts = us := by
  induction ts generalizing us with
  | nil =>
    cases us with
    | nil => rfl
    | cons => cases h
  | cons t ts ih =>
    cases us with
    | nil => cases h
    | cons u us =>
      cases h with
      | cons ho h =>
        cases ho
        rw [ih h]

/-! ## Rules -/

inductive BlockType.Means (m : Module) : BlockType → FuncType → Prop where
  | empty : Means m .empty ⟨[], []⟩
  | result (t : ValueType) : Means m (.result t) ⟨[], [t]⟩
  | index {i : UInt32} {t : FuncType} : m.types[i.toNat]? = some t → Means m (.index i) t

inductive TableOp.HasType (m : Module) : TableOp → List ValueType → List ValueType → Prop where
  | get {i : UInt32} {t : TableType} : m.tables[i.toNat]? = some t →
      HasType m (.get i) [.i32] [t.element.toValueType]
  | set {i : UInt32} {t : TableType} : m.tables[i.toNat]? = some t →
      HasType m (.set i) [.i32, t.element.toValueType] []
  | size {i : UInt32} {t : TableType} : m.tables[i.toNat]? = some t → HasType m (.size i) [] [.i32]
  | grow {i : UInt32} {t : TableType} : m.tables[i.toNat]? = some t →
      HasType m (.grow i) [t.element.toValueType, .i32] [.i32]
  | fill {i : UInt32} {t : TableType} : m.tables[i.toNat]? = some t →
      HasType m (.fill i) [.i32, t.element.toValueType, .i32] []
  | copy {i j : UInt32} {t u : TableType} : m.tables[i.toNat]? = some t →
      m.tables[j.toNat]? = some u → t.element = u.element →
      HasType m (.copy i j) [.i32, .i32, .i32] []
  | init {i j : UInt32} {t : TableType} {s : ElementSegment} : m.tables[i.toNat]? = some t →
      m.segments[j.toNat]? = some s → t.element = s.type →
      HasType m (.init i j) [.i32, .i32, .i32] []
  | dropSegment {j : UInt32} {s : ElementSegment} : m.segments[j.toNat]? = some s →
      HasType m (.dropSegment j) [] []

inductive FixedOp.HasType (Γ : Scope) : FixedOp → List ValueType → List ValueType → Prop where
  | call {i j : UInt32} {t : FuncType} : Γ.module.functionSpace[i.toNat]? = some j →
      Γ.module.types[j.toNat]? = some t → HasType Γ (.call i) t.params t.results
  | callIndirect {i j : UInt32} {t : FuncType} {u : TableType} :
      Γ.module.tables[j.toNat]? = some u → u.element = .funcref →
      Γ.module.types[i.toNat]? = some t →
      HasType Γ (.callIndirect i j) (t.params ++ [.i32]) t.results
  | selectTyped (t : ValueType) : HasType Γ (.selectTyped t) [t, t, .i32] [t]
  | localGet {i : UInt32} {t : ValueType} : Γ.locals[i.toNat]? = some t →
      HasType Γ (.localGet i) [] [t]
  | localSet {i : UInt32} {t : ValueType} : Γ.locals[i.toNat]? = some t →
      HasType Γ (.localSet i) [t] []
  | localTee {i : UInt32} {t : ValueType} : Γ.locals[i.toNat]? = some t →
      HasType Γ (.localTee i) [t] [t]
  | globalGet {i : UInt32} {g : GlobalType} : Γ.module.globals[i.toNat]? = some g →
      HasType Γ (.globalGet i) [] [g.type]
  | globalSet {i : UInt32} {g : GlobalType} : Γ.module.globals[i.toNat]? = some g →
      g.mutable = true → HasType Γ (.globalSet i) [g.type] []
  | table {o : TableOp} {ps rs : List ValueType} : o.HasType Γ.module ps rs →
      HasType Γ (.table o) ps rs
  | refNull (t : RefType) : HasType Γ (.refNull t) [] [t.toValueType]
  | refFunc {i j : UInt32} : Γ.module.functionSpace[i.toNat]? = some j →
      HasType Γ (.refFunc i) [] [.funcref]
  | load {o : LoadOp} {a : MemArg} {m : MemoryType} : Γ.module.memories[0]? = some m →
      a.align.toNat ≤ o.log2Width → HasType Γ (.load o a) [.i32] [o.type]
  | store {o : StoreOp} {a : MemArg} {m : MemoryType} : Γ.module.memories[0]? = some m →
      a.align.toNat ≤ o.log2Width → HasType Γ (.store o a) [.i32, o.type] []
  | memorySize {m : MemoryType} : Γ.module.memories[0]? = some m →
      HasType Γ .memorySize [] [.i32]
  | memoryGrow {m : MemoryType} : Γ.module.memories[0]? = some m →
      HasType Γ .memoryGrow [.i32] [.i32]
  | i32Const (b : UInt32) : HasType Γ (.i32Const b) [] [.i32]
  | i64Const (b : UInt64) : HasType Γ (.i64Const b) [] [.i64]
  | f32Const (b : UInt32) : HasType Γ (.f32Const b) [] [.f32]
  | f64Const (b : UInt64) : HasType Γ (.f64Const b) [] [.f64]
  | numeric (o : NumericOp) : HasType Γ (.numeric o) o.params [o.result]

/-- What an operation takes and gives. A jump takes anything below what its label carries and gives
anything at all. -/
inductive Op.HasType (Γ : Scope) : Op → List Operand → List Operand → Prop where
  | unreachable (ss us : List Operand) : HasType Γ .unreachable ss us
  | nop : HasType Γ .nop [] []
  | br {l : UInt32} {ts : List ValueType} (ss us : List Operand) :
      Γ.labels[l.toNat]? = some ts → HasType Γ (.br l) (ss ++ knowns ts) us
  | brIf {l : UInt32} {ts : List ValueType} : Γ.labels[l.toNat]? = some ts →
      HasType Γ (.brIf l) (knowns ts ++ [known .i32]) (knowns ts)
  /-- One list of operands has to do for every label. -/
  | brTable {ls : List UInt32} {d : UInt32} {os : List Operand} (ss us : List Operand) :
      (∀ l ∈ d :: ls, ∃ ts, Γ.labels[l.toNat]? = some ts ∧ SubAll os (knowns ts)) →
      HasType Γ (.brTable ls d) (ss ++ os ++ [known .i32]) us
  | return_ (ss us : List Operand) : HasType Γ .return_ (ss ++ knowns Γ.results) us
  | drop (o : Operand) : HasType Γ .drop [o] []
  | select {t : ValueType} : t.isNum = true →
      HasType Γ .select [known t, known t, known .i32] [known t]
  | selectBottom : HasType Γ .select [unknown, unknown, known .i32] [unknown]
  | refIsNull (t : RefType) : HasType Γ .refIsNull [known t.toValueType] [known .i32]
  | fixed {o : FixedOp} {ps rs : List ValueType} : o.HasType Γ ps rs →
      HasType Γ (.fixed o) (knowns ps) (knowns rs)

/-- Code takes operands of the first types to operands of the second. -/
inductive Typed : Scope → Code → List Operand → List Operand → Prop where
  | nil {Γ : Scope} : Typed Γ [] [] []
  | op {Γ : Scope} {o : Op} {ss ts : List Operand} : o.HasType Γ ss ts → Typed Γ [.op o] ss ts
  | block {Γ : Scope} {t : BlockType} {f : FuncType} {body : Code} : t.Means Γ.module f →
      Typed (Γ.inside f.results) body (knowns f.params) (knowns f.results) →
      Typed Γ [.block t body] (knowns f.params) (knowns f.results)
  /-- A branch to a loop enters it anew. -/
  | loop {Γ : Scope} {t : BlockType} {f : FuncType} {body : Code} : t.Means Γ.module f →
      Typed (Γ.inside f.params) body (knowns f.params) (knowns f.results) →
      Typed Γ [.loop t body] (knowns f.params) (knowns f.results)
  /-- Without a second branch the parameters are the results. -/
  | ifThen {Γ : Scope} {t : BlockType} {f : FuncType} {body : Code} : t.Means Γ.module f →
      f.params = f.results →
      Typed (Γ.inside f.results) body (knowns f.params) (knowns f.results) →
      Typed Γ [.ifThen t body] (knowns f.params ++ [known .i32]) (knowns f.results)
  | ifElse {Γ : Scope} {t : BlockType} {f : FuncType} {body other : Code} : t.Means Γ.module f →
      Typed (Γ.inside f.results) body (knowns f.params) (knowns f.results) →
      Typed (Γ.inside f.results) other (knowns f.params) (knowns f.results) →
      Typed Γ [.ifElse t body other] (knowns f.params ++ [known .i32]) (knowns f.results)
  | seq {Γ : Scope} {a b : Code} {ss ts us : List Operand} : Typed Γ a ss ts → Typed Γ b ts us →
      Typed Γ (a ++ b) ss us
  | frame {Γ : Scope} {a : Code} {ss ts : List Operand} (pre : List Operand) : Typed Γ a ss ts →
      Typed Γ a (pre ++ ss) (pre ++ ts)
  | sub {Γ : Scope} {a : Code} {ss ss' ts ts' : List Operand} : SubAll ss' ss → SubAll ts ts' →
      Typed Γ a ss ts → Typed Γ a ss' ts'

theorem Typed.skip {Γ : Scope} {ss ts : List Operand} (h : SubAll ss ts) : Typed Γ [] ss ts := by
  have hn : Typed Γ [] ss ss := by simpa using Typed.nil.frame ss
  exact .sub (.refl ss) h hn

/-- The code of the body is nested code that gives the results of its function, and the end of the
function. -/
def FunctionBody.WellTyped (m : Module) (b : FunctionBody) : Prop :=
  ∃ t code, m.types[b.typeIndex.toNat]? = some t ∧
    b.code.map (·.instr) = flatAll code ++ [.end_] ∧
    Typed (.ofBody m t b.locals) code [] (knowns t.results)

/-! ## References to functions -/

namespace Module

/-- The functions that the instructions take references to have types. Their typing rule asks for
the functions alone, since a reference to one is typed without it. -/
def RefsTyped (m : Module) (is : List Instr) : Prop :=
  ∀ i j, .op (.fixed (.refFunc i)) ∈ is → m.functionSpace[i.toNat]? = some j →
    ∃ t, m.types[j.toNat]? = some t

variable {m : Module} {is js : List Instr}

theorem RefsTyped.mono (h : m.RefsTyped is) (hs : js ⊆ is) : m.RefsTyped js :=
  fun i j hi => h i j (hs hi)

theorem RefsTyped.append (h : m.RefsTyped is) (h' : m.RefsTyped js) : m.RefsTyped (is ++ js) :=
  fun i j hi => (List.mem_append.1 hi).elim (h i j) (h' i j)

theorem refsTyped_nil (m : Module) : m.RefsTyped [] := fun _ _ hi => nomatch hi

theorem refsTyped_singleton {i : Instr} (h : ∀ f, i ≠ .op (.fixed (.refFunc f))) :
    m.RefsTyped [i] := fun f _ hf => absurd (List.mem_singleton.1 hf).symm (h f)

end Module

end WasmCheck
