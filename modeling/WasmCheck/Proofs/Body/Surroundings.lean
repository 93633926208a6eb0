import WasmCheck.Proofs.Body.Simulation
import WasmCheck.Proofs.Typing.Signature

/-!
# What a body sees of its module

A body is checked against a context, and the context is asked in one place: where the type of an
operation or of a block is looked up. So the parts of a module that no look-up reads do not matter,
and entries that are added behind those of an index space disturb no look-up that succeeds.
-/

namespace WasmCheck

open Stack Attempt

/-! ## Look-ups -/

theorem coincide_lookup_of_map {α γ : Type} {X : Error → Prop} {f : α → γ} {as bs : List α}
    (h : as.map f = bs.map f) (space : String) (i : UInt32) :
    Coincide X (fun a b => f a = f b) (lookup space as i) (lookup space bs i) := by
  have hlen : as.length = bs.length := by simpa using congrArg List.length h
  have hi : as[i.toNat]?.map f = bs[i.toNat]?.map f := by
    rw [← List.getElem?_map, h, List.getElem?_map]
  unfold lookup spaceSize
  rw [hlen]
  cases ha : as[i.toNat]? with
  | some a =>
    cases hb : bs[i.toNat]? with
    | some b =>
      rw [ha, hb] at hi
      exact .ok (Option.some.inj hi)
    | none => simp [ha, hb] at hi
  | none =>
    cases hb : bs[i.toNat]? with
    | some b => simp [ha, hb] at hi
    | none => exact .error _

theorem coincide_lookup_append {α : Type} {as bs : List α} (h : bs <+: as) (space : String)
    (i : UInt32) : Coincide (fun _ => True) Eq (lookup space as i) (lookup space bs i) := by
  obtain ⟨more, rfl⟩ := h
  cases hb : lookup space bs i with
  | ok b =>
    rw [lookup_append hb]
    exact .ok rfl
  | error => exact .excused trivial

theorem Locals.typeOf_append {params : List ValueType} {groups more : List LocalGroup} {i : UInt32}
    {t : ValueType} (h : (Locals.mk params groups).typeOf i = .ok t) :
    (Locals.mk params (groups ++ more)).typeOf i = .ok t := by
  rw [typeOf_eq_ok_iff, types] at *
  rw [List.flatMap_append, ← List.append_assoc,
    List.getElem?_append_left (List.getElem?_eq_some_iff.1 h).1, h]

/-- What a body looks up in the context `c'` it finds in `c`, too. Where the look-up in `c'` fails,
the one in `c` fails with the same error, or the error is in `X`. -/
structure Context.Mirrors (X : Error → Prop) (c c' : Context) : Prop where
  funcType (i : UInt32) : Coincide X Eq (c.module.funcType i) (c'.module.funcType i)
  function (i : UInt32) : Coincide X Eq (c.module.functionType i) (c'.module.functionType i)
  table (i : UInt32) : Coincide X (fun t u => t.element = u.element) (c.module.table i)
    (c'.module.table i)
  memory : Coincide X (fun _ _ => True) (c.module.memory 0) (c'.module.memory 0)
  global (i : UInt32) : Coincide X Eq (c.module.global i) (c'.module.global i)
  segment (i : UInt32) : Coincide X (fun s t => s.type = t.type) (c.module.segment i)
    (c'.module.segment i)
  local_ (i : UInt32) : Coincide X Eq (c.locals.typeOf i) (c'.locals.typeOf i)
  results : c.results = c'.results

namespace Context.Mirrors

variable {X : Error → Prop} {c c' : Context}

theorem blockType (h : c.Mirrors X c') (t : BlockType) :
    Coincide X Eq (t.funcType c.module) (t.funcType c'.module) := by
  cases t with
  | index i => exact h.funcType i
  | _ => exact .refl _

theorem access (h : c.Mirrors X c') (w : Nat) (arg : MemArg) :
    Coincide X Eq (c.module.checkAccess w arg) (c'.module.checkAccess w arg) :=
  h.memory.bind fun _ _ _ => .refl _

theorem tableOp (h : c.Mirrors X c') (o : TableOp) :
    Coincide X Eq (o.type c.module) (o.type c'.module) := by
  cases o with
  | get i | set i | grow i | fill i =>
    refine (h.table i).bind fun t u ht => ?_
    rw [ht]
    exact .refl _
  | size i => exact (h.table i).bind fun _ _ _ => .refl _
  | copy i j =>
    refine (h.table i).bind fun t u ht => (h.table j).bind fun t' u' ht' => ?_
    rw [ht, ht']
    exact .refl _
  | init i j =>
    refine (h.table i).bind fun t u ht => (h.segment j).bind fun s s' hs => ?_
    rw [ht, hs]
    exact .refl _
  | dropSegment j => exact (h.segment j).bind fun _ _ _ => .refl _

theorem fixedOp (h : c.Mirrors X c') (o : FixedOp) : Coincide X Eq (o.type c) (o.type c') := by
  have same {α : Type} {x y : Except Error α} (f : α → Except Error FuncType)
      (hx : Coincide X Eq x y) : Coincide X Eq (x >>= f) (y >>= f) := by
    refine hx.bind ?_
    rintro a _ rfl
    exact .refl _
  cases o with
  | call i => exact h.function i
  | callIndirect i j =>
    refine (h.table j).bind fun t u ht => ?_
    rw [ht]
    split
    · exact same _ (h.funcType i)
    · exact .refl _
  | localGet i | localSet i | localTee i => exact same _ (h.local_ i)
  | globalGet i | globalSet i => exact same _ (h.global i)
  | table o => exact h.tableOp o
  | refFunc i => exact same _ (h.function i)
  | load o arg | store o arg => exact same _ (h.access _ arg)
  | memorySize | memoryGrow => exact h.memory.bind fun _ _ _ => .refl _
  | _ => exact .refl _

end Context.Mirrors

/-! ## Instructions -/

/-- What an instruction looks up in its context; nothing, for most of them. -/
def Instr.lookUp (c : Context) : Instr → Except Error FuncType
  | block t | loop t | if_ t => t.funcType c.module
  | op (.fixed o) => o.type c
  | else_ | end_ | op _ => .ok ⟨[], []⟩

/-- Nothing else of the context is used, apart from the results of the function. -/
theorem Instr.check_congr {c c' : Context} {i : Instr} (hl : i.lookUp c = i.lookUp c')
    (hr : c.results = c'.results) : i.check c = i.check c' := by
  cases i with
  | block | loop | if_ =>
    simp only [lookUp] at hl
    simp only [check, rule, hl]
  | else_ | end_ => rfl
  | op o =>
    cases o with
    | fixed o =>
      simp only [lookUp] at hl
      simp only [check, rule, Op.check, FixedOp.check, hl]
    | return_ => simp only [check, rule, Op.check, hr]
    | _ => rfl

theorem Instr.run_check_of_lookUp_error {c : Context} {i : Instr} {s : Stack} {e : Error}
    (h : i.lookUp c = .error e) (hs : s.frames ≠ []) : run (i.check c) s = (.error e, s) := by
  obtain ⟨f, fs, hf⟩ := List.exists_cons_of_ne_nil hs
  have hcur : run currentFrame s = (.ok f, s) := by simp [Attempt.run, currentFrame, hf]
  rw [check, run_bind_of_ok hcur]
  cases i with
  | block | loop | if_ => exact run_bind_of_error (congrArg (·, s) h)
  | else_ | end_ => cases h
  | op o =>
    cases o with
    | fixed o => exact run_bind_of_error (congrArg (·, s) h)
    | _ => cases h

namespace Context.Mirrors

variable {X : Error → Prop} {c c' : Context}

theorem lookUp (h : c.Mirrors X c') (i : Instr) : Coincide X Eq (i.lookUp c) (i.lookUp c') := by
  cases i with
  | block t | loop t | if_ t => exact h.blockType t
  | else_ | end_ => exact .refl _
  | op o =>
    cases o with
    | fixed o => exact h.fixedOp o
    | _ => exact .refl _

theorem check (h : c.Mirrors X c') (i : Instr) (s : Stack) :
    Lockstep X (i.check c) (i.check c') s s (fun _ _ s t => s = t) fun _ _ => True := by
  rcases (h.lookUp i).eq_or_excused with he | ⟨e, he, hX⟩
  · rw [Instr.check_congr he h.results]
    exact ((Lockstep.refl _ s).weaken (fun _ => id) fun _ _ _ => trivial).mono
      fun _ _ _ _ h => h.2
  · by_cases hs : s.frames = []
    · obtain ⟨xs, fs, mo, mf⟩ := s
      cases hs
      exact .error trivial
    · unfold Lockstep
      rw [Instr.run_check_of_lookUp_error he hs]
      exact .excused hX

theorem simulation (X : Error → Prop) : BodyChecker.Simulation X fun k k' =>
    k.stack = k'.stack ∧ k.context.Mirrors X k'.context where
  depth h := congrArg depth h.1
  check {k k'} i h := by
    rw [← h.1]
    exact (h.2.check i k.stack).mono fun _ _ _ _ hs => ⟨hs, h.2⟩

end Context.Mirrors

/-! ## Modules -/

namespace Module

variable {m m' : Module} {b : FunctionBody} {config : Config}

/-- The modules are the same, apart from the code of functions, the limits of tables and memories,
and what segments are for and hold. -/
structure SameView (m m' : Module) : Prop where
  types : m.types = m'.types
  imports : m.imports = m'.imports
  functions : m.functions.map (·.typeIndex) = m'.functions.map (·.typeIndex)
  tables : m.tables.map (·.element) = m'.tables.map (·.element)
  memories : m.memories.length = m'.memories.length
  globals : m.globals = m'.globals
  segments : m.segments.map (·.type) = m'.segments.map (·.type)

/-- More entries stand behind those of the module, except that no function is imported. -/
structure Extends (m m' : Module) : Prop where
  types : m.types <+: m'.types
  imports : m.imports = m'.imports
  functions : m.functions <+: m'.functions
  tables : m.tables <+: m'.tables
  memories : m.memories <+: m'.memories
  globals : m.globals <+: m'.globals
  segments : m.segments <+: m'.segments

theorem SameView.mirrors (h : m.SameView m') (X : Error → Prop) (l : Locals)
    (results : List ValueType) : Context.Mirrors X ⟨m, l, results⟩ ⟨m', l, results⟩ where
  funcType i := by
    simp only [funcType, h.types]
    exact .refl _
  function i := by
    simp only [functionType, functionSpace, funcType, h.imports, h.functions, h.types]
    exact .refl _
  table := coincide_lookup_of_map h.tables "table"
  memory := by
    have hm : m.memories.map (fun _ => ()) = m'.memories.map fun _ => () := by
      rw [List.map_const', List.map_const', h.memories]
    exact (coincide_lookup_of_map hm "memory" 0).mono fun _ _ _ => trivial
  global i := by
    simp only [global, h.globals]
    exact .refl _
  segment := coincide_lookup_of_map h.segments "elem segment"
  local_ i := .refl _
  results := rfl

theorem Extends.mirrors (h : m.Extends m') (params results : List ValueType)
    (groups more : List LocalGroup) :
    Context.Mirrors (fun _ => True) ⟨m', ⟨params, groups ++ more⟩, results⟩
      ⟨m, ⟨params, groups⟩, results⟩ where
  funcType := coincide_lookup_append h.types "type"
  function i := by
    have hf : m.functionSpace <+: m'.functionSpace := by
      rw [functionSpace, functionSpace, h.imports]
      exact List.prefix_append_right_inj _ |>.2 (h.functions.map _)
    refine (coincide_lookup_append hf "function" i).bind ?_
    rintro j _ rfl
    exact coincide_lookup_append h.types "type" j
  table i := (coincide_lookup_append h.tables "table" i).mono fun _ _ he => by rw [he]
  memory := (coincide_lookup_append h.memories "memory" 0).mono fun _ _ _ => trivial
  global := coincide_lookup_append h.globals "global"
  segment i := (coincide_lookup_append h.segments "elem segment" i).mono fun _ _ he => by rw [he]
  local_ i := by
    cases ht : (Locals.mk params groups).typeOf i with
    | error => exact .excused trivial
    | ok t => rw [Locals.typeOf_append ht]; exact .ok rfl
  results := rfl

theorem checkBody_eq_of_sameView (h : m.SameView m') (config : Config) (b : FunctionBody) :
    m.checkBody config b = m'.checkBody config b := by
  have hsim := (Context.Mirrors.simulation fun _ => False).checkBody m m' config config b b rfl rfl
    ((h.mirrors _ ⟨[], []⟩ []).funcType _) fun t _ => by
      rw [BodyChecker.start_eq, BodyChecker.start_eq]
      split
      · exact .error _
      split
      · exact .error _
      · exact .ok ⟨rfl, h.mirrors _ _ _⟩
  rcases hsim.eq_or_excused with he | ⟨_, -, hX⟩
  · exact he
  · exact hX.elim

theorem checkBody_of_extends (h : m.Extends m') {config : Config} {b : FunctionBody}
    (hok : m.checkBody config b = .ok ()) (more : List LocalGroup)
    (hmore : ∀ t, m.funcType b.typeIndex = .ok t →
      (Locals.mk t.params (b.locals ++ more)).total ≤ config.maxLocals.toNat) :
    m'.checkBody config { b with locals := b.locals ++ more } = .ok () := by
  have hsim := (Context.Mirrors.simulation fun _ => True).checkBody m' m config config
    { b with locals := b.locals ++ more } b rfl rfl ((h.mirrors [] [] [] []).funcType _)
    fun t ht => by
      cases hk : BodyChecker.start m t b.locals config with
      | error => exact .excused trivial
      | ok k =>
        obtain ⟨-, hframes, rfl⟩ := BodyChecker.start_eq_ok_iff.1 hk
        rw [BodyChecker.start_eq_ok_iff.2 ⟨hmore t ht, hframes, rfl⟩]
        exact .ok ⟨rfl, h.mirrors _ _ _ _⟩
  rcases hsim.eq_or_excused with he | ⟨_, he, -⟩
  · rw [he, hok]
  · rw [hok] at he
    cases he

/-- Bodies are checked independently of each other: what else stands in the module does not matter,
and an accepted body is accepted in every module with more entries behind the present ones, also if
it declares more variables, as long as they are not too many. -/
theorem checkBody_surroundings (m : Module) (config : Config) (b : FunctionBody) :
    (∀ m', m.SameView m' → m.checkBody config b = m'.checkBody config b) ∧
      (m.checkBody config b = .ok () → ∀ m', m.Extends m' →
        m'.checkBody config b = .ok () ∧
          ∀ more, (∀ t, m.funcType b.typeIndex = .ok t →
              (Locals.mk t.params (b.locals ++ more)).total ≤ config.maxLocals.toNat) →
            m'.checkBody config { b with locals := b.locals ++ more } = .ok ()) := by
  refine ⟨fun m' h => checkBody_eq_of_sameView h config b, fun hok m' h => ⟨?_, fun more hmore =>
    checkBody_of_extends h hok more hmore⟩⟩
  have hnone := checkBody_of_extends h hok [] fun t ht => by
    obtain ⟨t', k, -, ht', hk, -⟩ := checkBody_eq_ok_iff.1 hok
    obtain rfl := Option.some.inj ((lookup_eq_ok_iff.1 ht).symm.trans ht')
    rw [List.append_nil]
    exact (BodyChecker.start_eq_ok_iff.1 hk).1
  rwa [List.append_nil] at hnone

/-- Passes an element of a table to an imported function and stores what it gets. -/
def relay : FunctionBody where
  typeIndex := 0
  locals := [⟨1, .i32⟩]
  code := Located.consecutive 0 [.op (.fixed (.localGet 0)), .op (.fixed (.table (.get 0))),
    .op (.fixed (.call 0)), .op (.fixed (.localSet 1)), .op (.fixed (.globalGet 0)),
    .op (.fixed (.localGet 1)), .op (.fixed (.store (.int .i32) ⟨2, 0⟩)),
    .op (.fixed (.table (.dropSegment 0))), .end_]
  endOffset := 9

def relaying : Module where
  types := [⟨[.i32], []⟩, ⟨[.funcref], [.i32]⟩]
  imports := [1]
  functions := [relay]
  tables := [⟨.funcref, ⟨1, none⟩⟩]
  memories := [⟨⟨1, none⟩⟩]
  globals := [⟨.i32, false⟩]
  segments := [⟨.funcref, .passive, [1]⟩]

/-- The same to look at from inside a body. -/
def relayingElsewhere : Module :=
  { relaying with
    functions := [.ofType 0]
    tables := [⟨.funcref, ⟨7, some 9⟩⟩]
    memories := [⟨⟨0, some 3⟩⟩]
    segments := [⟨.funcref, .active 0, []⟩] }

def relayingMore : Module :=
  { relaying with
    types := relaying.types ++ [⟨[], []⟩]
    functions := relaying.functions ++ [.ofType 2]
    tables := relaying.tables ++ [⟨.externref, ⟨0, none⟩⟩]
    memories := relaying.memories ++ [⟨⟨0, none⟩⟩]
    globals := relaying.globals ++ [⟨.f32, true⟩]
    segments := relaying.segments ++ [⟨.externref, .declarative, []⟩] }

theorem checkBody_surroundings_relay :
    relaying.checkBody {} relay = relayingElsewhere.checkBody {} relay ∧
      relayingMore.checkBody {} { relay with locals := relay.locals ++ [⟨3, .f64⟩] } = .ok () := by
  obtain ⟨hsame, hmore⟩ := checkBody_surroundings relaying {} relay
  refine ⟨hsame _ ⟨rfl, rfl, rfl, rfl, rfl, rfl, rfl⟩, (hmore (by rfl) _ ?_).2 [⟨3, .f64⟩] ?_⟩
  · exact ⟨⟨_, rfl⟩, rfl, ⟨_, rfl⟩, ⟨_, rfl⟩, ⟨_, rfl⟩, ⟨_, rfl⟩, ⟨_, rfl⟩⟩
  · intro t ht
    cases ht
    decide

end Module

end WasmCheck
