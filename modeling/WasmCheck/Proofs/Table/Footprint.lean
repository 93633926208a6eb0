import WasmCheck.Proofs.Lockstep
import WasmCheck.Proofs.Table.Writes

/-!
# The footprint of a table instruction

A table instruction names one or two places in the store, tables or segments, and it writes at most
one of them, its target. It takes a fixed number of operands from the stack and looks no deeper.
`lockstep_execute` says that nothing else is read: on two stores that agree at the named places and
on the operands it does the same. `post_execute_frame` says that nothing else is changed.
-/

namespace WasmCheck

open Attempt

inductive Place where
  | table (i : Nat)
  | segment (i : Nat)
deriving DecidableEq, Repr

namespace TableOp

def names : TableOp → List Place
  | get i | set i | size i | grow i | fill i => [.table i.toNat]
  | copy i j => [.table i.toNat, .table j.toNat]
  | init i j => [.table i.toNat, .segment j.toNat]
  | dropSegment j => [.segment j.toNat]

/-- What the instruction may write. -/
def target : TableOp → Option Place
  | get _ | size _ => none
  | set i | grow i | fill i | copy i _ | init i _ => some (.table i.toNat)
  | dropSegment j => some (.segment j.toNat)

def arity : TableOp → Nat
  | size _ | dropSegment _ => 0
  | get _ => 1
  | set _ | grow _ => 2
  | fill _ | copy .. | init .. => 3

def coarity : TableOp → Nat
  | get _ | size _ | grow _ => 1
  | set _ | fill _ | copy .. | init .. | dropSegment _ => 0

theorem mem_names_of_target {o : TableOp} {e : Place} (h : o.target = some e) : e ∈ o.names := by
  cases o <;> cases h <;> exact List.mem_cons_self

end TableOp

namespace Store

/-! ## Entries -/

def entry (s : Store) : Place → Option (Table ⊕ List Value)
  | .table i => s.tables[i]?.map .inl
  | .segment i => s.segments[i]?.map .inr

variable {s s' t : Store} {i : UInt32} {e : Place}

theorem table_eq_of_entry {i : Nat} (h : s'.entry (.table i) = s.entry (.table i)) :
    s'.tables[i]? = s.tables[i]? :=
  Option.map_injective (fun _ _ => Sum.inl.inj) h

theorem segment_eq_of_entry {i : Nat} (h : s'.entry (.segment i) = s.entry (.segment i)) :
    s'.segments[i]? = s.segments[i]? :=
  Option.map_injective (fun _ _ => Sum.inr.inj) h

theorem same_of_entry (h : ∀ e, s'.entry e = s.entry e) : Same s s' where
  tables := List.ext_getElem? fun i => table_eq_of_entry (h (.table i))
  segments := List.ext_getElem? fun i => segment_eq_of_entry (h (.segment i))

theorem ext_entry (h : ∀ e, s'.entry e = s.entry e) (hs : s'.stack = s.stack) : s' = s := by
  obtain ⟨htables, hsegments⟩ := same_of_entry h
  cases s
  cases s'
  cases htables
  cases hsegments
  cases hs
  rfl

@[simp] theorem entry_withStack (s : Store) (vs : List Value) (e : Place) :
    entry { s with stack := vs } e = s.entry e := by
  cases e <;> rfl

/-- A table that is put in a place takes the place of another one, or has no effect. -/
theorem entry_setTable (s : Store) (i : Nat) (t : Table) (e : Place) :
    entry { s with tables := s.tables.set i t } e =
      if e = .table i then (s.entry e).map fun _ => .inl t else s.entry e := by
  cases e with
  | segment j => rfl
  | table j =>
    by_cases hj : j = i
    · subst hj
      rw [if_pos rfl, entry, entry, List.getElem?_set_self']
      cases s.tables[j]? <;> rfl
    · rw [if_neg fun h => hj (Place.table.inj h), entry, entry,
        List.getElem?_set_ne (Ne.symm hj)]

theorem entry_setSegment (s : Store) (i : Nat) (items : List Value) (e : Place) :
    entry { s with segments := s.segments.set i items } e =
      if e = .segment i then (s.entry e).map fun _ => .inr items else s.entry e := by
  cases e with
  | table j => rfl
  | segment j =>
    by_cases hj : j = i
    · subst hj
      rw [if_pos rfl, entry, entry, List.getElem?_set_self']
      cases s.segments[j]? <;> rfl
    · rw [if_neg fun h => hj (Place.segment.inj h), entry, entry,
        List.getElem?_set_ne (Ne.symm hj)]

/-! ## What is read -/

/-- The stores agree at the places in `P`. Below the values of the first stack the second one holds
`rest`, which `n` more pops do not reach. -/
structure Akin (P : Place → Prop) (rest : List Value) (n : Nat) (s s' : Store) : Prop where
  entries : ∀ e, P e → s'.entry e = s.entry e
  stack : s'.stack = s.stack ++ rest
  enough : n ≤ s.stack.length ∨ rest = []

/-- On akin stores the attempt takes the same way, with answers and states in `Q`; after a failure
the stores are still akin. -/
abbrev Together {α : Type} (P : Place → Prop) (rest : List Value) (x : Exec α) (s s' : Store)
    (Q : α → α → Store → Store → Prop) : Prop :=
  Lockstep (fun _ => False) x x s s' Q (Akin P rest 0)

theorem Together.bind {α β : Type} {P : Place → Prop} {rest : List Value} {n : Nat} {x : Exec α}
    {f : α → Exec β} {Q : β → β → Store → Store → Prop}
    (hx : Together P rest x s s' fun a a' t t' => a = a' ∧ Akin P rest n t t')
    (hf : ∀ a t t', Akin P rest n t t' → Together P rest (f a) t t' Q) :
    Together P rest (x >>= f) s s' Q := by
  refine Lockstep.bind hx ?_
  rintro a _ t t' ⟨rfl, h⟩
  exact hf a t t' h

namespace Akin

variable {P : Place → Prop} {rest : List Value} {n : Nat}

theorem weaken (h : Akin P rest n s s') : Akin P rest 0 s s' :=
  ⟨h.entries, h.stack, .inl (Nat.zero_le _)⟩

theorem ofExcept {α : Type} (h : Akin P rest n s s') (r : Except Error α) :
    Together P rest (Attempt.ofExcept r) s s' fun a a' t t' => a = a' ∧ Akin P rest n t t' :=
  Lockstep.ofExcept (fun _ => ⟨rfl, h⟩) h.weaken

theorem push (h : Akin P rest n s s') (v : Value) :
    Together P rest (Store.push v) s s' fun _ _ => Akin P rest 0 := by
  refine .modify ⟨h.entries, ?_, .inl (Nat.zero_le _)⟩
  show v :: s'.stack = (v :: s.stack) ++ rest
  rw [h.stack, List.cons_append]

theorem pop (h : Akin P rest (n + 1) s s') :
    Together P rest Store.pop s s' fun v v' t t' => v = v' ∧ Akin P rest n t t' := by
  have hstack := h.stack
  unfold Together Lockstep run Store.pop
  cases hs : s.stack with
  | nil =>
    have hrest : rest = [] := h.enough.resolve_left (by rw [hs]; exact Nat.not_succ_le_zero n)
    rw [hs, hrest] at hstack
    rw [hstack]
    exact .error h.weaken
  | cons v vs =>
    rw [hs, List.cons_append] at hstack
    rw [hstack]
    refine .ok ⟨rfl, h.entries, rfl, h.enough.imp_left fun hn => ?_⟩
    rw [hs, List.length_cons] at hn
    exact Nat.le_of_succ_le_succ hn

theorem popWord (h : Akin P rest (n + 1) s s') :
    Together P rest Store.popWord s s' fun w w' t t' => w = w' ∧ Akin P rest n t t' :=
  h.pop.bind fun v _ _ h => h.ofExcept v.asU32

theorem table (h : Akin P rest n s s') (hi : P (.table i.toNat)) :
    Together P rest (Store.table i) s s' fun u u' t t' => u = u' ∧ Akin P rest n t t' := by
  unfold Together Lockstep
  rw [run_table, run_table, table_eq_of_entry (h.entries _ hi)]
  cases s.tables[i.toNat]? with
  | none => exact .error h.weaken
  | some u => exact .ok ⟨rfl, h⟩

theorem segment (h : Akin P rest n s s') (hi : P (.segment i.toNat)) :
    Together P rest (Store.segment i) s s' fun u u' t t' => u = u' ∧ Akin P rest n t t' := by
  unfold Together Lockstep run Store.segment
  rw [segment_eq_of_entry (h.entries _ hi)]
  cases s.segments[i.toNat]? with
  | none => exact .error h.weaken
  | some items => exact .ok ⟨rfl, h⟩

theorem putTable (h : Akin P rest n s s') (u : Table) :
    Together P rest (Store.putTable i u) s s' fun _ _ => Akin P rest n := by
  refine .modify ⟨fun e he => ?_, h.stack, h.enough⟩
  rw [entry_setTable, entry_setTable, h.entries e he]

theorem put (h : Akin P rest n s s') (r : Except Error Table) :
    Together P rest (do Store.putTable i (← Attempt.ofExcept r)) s s' fun _ _ => Akin P rest n :=
  (h.ofExcept r).bind fun u _ _ h => h.putTable u

theorem onTable {α : Type} (h : Akin P rest n s s') (hi : P (.table i.toNat)) (x : Change α) :
    Together P rest (Store.onTable i x) s s' fun a a' t t' => a = a' ∧ Akin P rest n t t' := by
  refine (h.table hi).bind fun u _ _ h => ?_
  exact Lockstep.bind (h.putTable (run x u).2) fun _ _ _ _ h => h.ofExcept (run x u).1

theorem change (h : Akin P rest n s s') (hi : P (.table i.toNat)) (x : Change Unit) :
    Together P rest (Store.onTable i x) s s' fun _ _ => Akin P rest n :=
  (h.onTable hi x).mono fun _ _ _ _ h => h.2

theorem copyTable {j : UInt32} (h : Akin P rest n s s') (hi : P (.table i.toNat))
    (hj : P (.table j.toNat)) (dst src len : UInt32) :
    Together P rest (Store.copyTable i dst j src len) s s' fun _ _ => Akin P rest n := by
  rw [copyTable_eq]
  refine (h.table hi).bind fun u _ _ h => ?_
  exact (h.table hj).bind fun source _ _ h => h.put (u.copyFrom dst source src len)

theorem initTable {j : UInt32} (h : Akin P rest n s s') (hi : P (.table i.toNat))
    (hj : P (.segment j.toNat)) (dst src len : UInt32) :
    Together P rest (Store.initTable i dst j src len) s s' fun _ _ => Akin P rest n :=
  (h.segment hj).bind fun items _ _ h => h.change hi (.init dst items src len)

theorem dropSegment (h : Akin P rest n s s') (hi : P (.segment i.toNat)) :
    Together P rest (Store.dropSegment i) s s' fun _ _ => Akin P rest n := by
  refine (h.segment hi).bind fun _ t t' h => ?_
  refine .modify ⟨fun e he => ?_, h.stack, h.enough⟩
  rw [entry_setSegment, entry_setSegment, h.entries e he]

end Akin

end Store

open Store in
/-- An instruction reads nothing but its operands and the places it names. -/
theorem TableOp.lockstep_execute {P : Place → Prop} {rest : List Value} {s s' : Store}
    (o : TableOp) (h : Akin P rest o.arity s s') (hP : ∀ e ∈ o.names, P e) :
    Together P rest o.execute s s' fun _ _ => Akin P rest 0 := by
  cases o with
  | get i =>
    have hi := hP _ (.head _)
    refine h.popWord.bind fun index _ _ h => ?_
    refine (h.table hi).bind fun t _ _ h => ?_
    exact (h.ofExcept (t.get index)).bind fun v _ _ h => h.push v
  | set i =>
    have hi := hP _ (.head _)
    refine h.pop.bind fun v _ _ h => ?_
    refine h.popWord.bind fun index _ _ h => ?_
    exact h.change hi (.set index v)
  | size i =>
    have hi := hP _ (.head _)
    exact (h.table hi).bind fun t _ _ h => h.push (.i32 t.size)
  | grow i =>
    have hi := hP _ (.head _)
    refine h.popWord.bind fun delta _ _ h => ?_
    refine h.pop.bind fun v _ _ h => ?_
    refine (h.onTable hi (.grow delta v)).bind fun r _ _ h => ?_
    cases r with
    | none => exact h.push (.i32 0xFFFFFFFF)
    | some old => exact h.push (.i32 old)
  | fill i =>
    have hi := hP _ (.head _)
    refine h.popWord.bind fun len _ _ h => ?_
    refine h.pop.bind fun v _ _ h => ?_
    refine h.popWord.bind fun start _ _ h => ?_
    exact h.change hi (.fill start v len)
  | copy i j =>
    have hi := hP _ (.head _)
    have hj := hP _ (.tail _ (.head _))
    refine h.popWord.bind fun len _ _ h => ?_
    refine h.popWord.bind fun src _ _ h => ?_
    refine h.popWord.bind fun dst _ _ h => ?_
    exact h.copyTable hi hj dst src len
  | init i j =>
    have hi := hP _ (.head _)
    have hj := hP _ (.tail _ (.head _))
    refine h.popWord.bind fun len _ _ h => ?_
    refine h.popWord.bind fun src _ _ h => ?_
    refine h.popWord.bind fun dst _ _ h => ?_
    exact h.initTable hi hj dst src len
  | dropSegment i => exact h.dropSegment (hP _ (.head _))

/-! ## What is changed -/

namespace Store

/-- The second store is the first one without the top `n` values. -/
def Drawn (n : Nat) (s t : Store) : Prop :=
  n ≤ s.stack.length ∧ t = { s with stack := s.stack.drop n }

/-- Of at most `n` operands some have been drawn, and nothing else has happened. -/
def Stopped (n : Nat) (s t : Store) : Prop := ∃ k ≤ n, Drawn k s t

/-- The instruction has replaced its operands by its results, and changed its target at most. -/
structure Completed (o : TableOp) (s t : Store) : Prop where
  enough : o.arity ≤ s.stack.length
  results : ∃ rs, rs.length = o.coarity ∧ t.stack = rs ++ s.stack.drop o.arity
  entries : ∀ e, o.target ≠ some e → t.entry e = s.entry e

section
variable {s t : Store} {i : UInt32} {n k : Nat} {o : TableOp}

theorem Drawn.zero (s : Store) : Drawn 0 s s := ⟨Nat.zero_le _, rfl⟩

theorem Stopped.same (h : Stopped n s t) : Same s t := by
  obtain ⟨k, -, -, rfl⟩ := h
  exact ⟨rfl, rfl⟩

namespace Drawn

theorem stopped (h : Drawn k s t) (hk : k ≤ n) : Stopped n s t := ⟨k, hk, h⟩

theorem entry_eq (h : Drawn k s t) (e : Place) : t.entry e = s.entry e := by
  rw [h.2, entry_withStack]

theorem pop (h : Drawn k s t) (hk : k < n) {Q : Value → Store → Prop}
    (hQ : ∀ v t', Drawn (k + 1) s t' → Q v t') : Post Store.pop t Q fun _ => Stopped n s := by
  have hstopped := h.stopped (Nat.le_of_lt hk)
  obtain ⟨-, rfl⟩ := h
  rw [post_pop]
  split
  · next v vs hs =>
    have hdrop : s.stack.drop k = v :: vs := hs
    have hlength := congrArg List.length hdrop
    rw [List.length_drop, List.length_cons] at hlength
    refine hQ v _ ⟨by omega, ?_⟩
    rw [← List.drop_drop, hdrop]
    rfl
  · exact hstopped

theorem popWord (h : Drawn k s t) (hk : k < n) {Q : UInt32 → Store → Prop}
    (hQ : ∀ w t', Drawn (k + 1) s t' → Q w t') :
    Post Store.popWord t Q fun _ => Stopped n s := by
  refine post_bind.2 (h.pop hk fun v t' h' => ?_)
  rw [post_ofExcept]
  exact ⟨fun w _ => hQ w t' h', fun _ _ => h'.stopped hk⟩

theorem table (h : Drawn k s t) (hk : k ≤ n) {Q : Table → Store → Prop} (hQ : ∀ u, Q u t) :
    Post (Store.table i) t Q fun _ => Stopped n s := by
  rw [post_table]
  split
  · exact hQ _
  · exact h.stopped hk

theorem segment (h : Drawn k s t) (hk : k ≤ n) {Q : List Value → Store → Prop}
    (hQ : ∀ items, Q items t) : Post (Store.segment i) t Q fun _ => Stopped n s := by
  rw [post_segment]
  split
  · exact hQ _
  · exact h.stopped hk

theorem completed (h : Drawn k s t) (hk : o.arity = k) {t' : Store} (rs : List Value)
    (hrs : rs.length = o.coarity) (hstack : t'.stack = rs ++ t.stack)
    (hentries : ∀ e, o.target ≠ some e → t'.entry e = t.entry e) : Completed o s t' := by
  subst hk
  refine ⟨h.1, ⟨rs, hrs, ?_⟩, fun e he => (hentries e he).trans (h.entry_eq e)⟩
  rw [hstack, h.2]

theorem push (h : Drawn k s t) (hk : o.arity = k) (hc : o.coarity = 1) (v : Value) :
    Completed o s { t with stack := v :: t.stack } :=
  h.completed hk [v] hc.symm rfl fun e _ => entry_withStack t _ e

theorem put (h : Drawn k s t) (hk : o.arity = k) (hc : o.coarity = 0)
    (ho : o.target = some (.table i.toNat)) (r : Except Error Table) :
    Post (do putTable i (← Attempt.ofExcept r)) t (fun _ => Completed o s)
      fun _ => Stopped k s := by
  rw [post_bind, post_ofExcept]
  refine ⟨fun u _ => ?_, fun _ _ => h.stopped (Nat.le_refl _)⟩
  refine h.completed hk [] hc.symm rfl fun e he => ?_
  have hne : e ≠ .table i.toNat := fun heq => he (heq ▸ ho)
  exact (entry_setTable t i.toNat u e).trans (if_neg hne)

theorem onTable (h : Drawn k s t) (hk : o.arity = k) (hc : o.coarity = 0)
    (ho : o.target = some (.table i.toNat)) {x : Change Unit} (hx : x.Atomic) :
    Post (Store.onTable i x) t (fun _ => Completed o s) fun _ => Stopped k s := by
  rw [onTable_of_atomic hx]
  exact post_bind.2 (h.table (Nat.le_refl _) fun u => h.put hk hc ho (x.final u))

end Drawn

end

end Store

open Store in
/-- An instruction draws its operands one by one. If it fails, it has done nothing else; otherwise
it leaves its results, and has changed nothing but its target. -/
theorem TableOp.post_execute_frame (o : TableOp) (s : Store) :
    Post o.execute s (fun _ => Completed o s) fun _ => Stopped o.arity s := by
  have h := Drawn.zero s
  cases o <;> dsimp only [arity]
  case get i =>
    refine post_bind.2 (h.popWord (by decide) fun index t h => ?_)
    refine post_bind.2 (h.table (Nat.le_refl _) fun u => ?_)
    rw [post_bind, post_ofExcept]
    exact ⟨fun v _ => h.push rfl rfl v, fun _ _ => h.stopped (Nat.le_refl _)⟩
  case set i =>
    refine post_bind.2 (h.pop (by decide) fun v t h => ?_)
    refine post_bind.2 (h.popWord (by decide) fun index t h => ?_)
    exact h.onTable rfl rfl rfl (Change.atomic_set index v)
  case size i => exact post_bind.2 (h.table (Nat.le_refl _) fun u => h.push rfl rfl (.i32 u.size))
  case grow i =>
    refine post_bind.2 (h.popWord (by decide) fun delta t h => ?_)
    refine post_bind.2 (h.pop (by decide) fun v t h => ?_)
    rw [onTable_grow]
    refine post_bind.2 (post_bind.2 (h.table (Nat.le_refl _) fun u => ?_))
    rw [post_bind, post_ofExcept]
    refine ⟨fun r _ => ?_, fun _ _ => h.stopped (Nat.le_refl _)⟩
    cases r with
    | none => exact h.push rfl rfl (.i32 0xFFFFFFFF)
    | some grown =>
      refine h.completed rfl [.i32 u.size] rfl rfl fun e he => ?_
      have hne : e ≠ .table i.toNat := fun heq => he (heq ▸ rfl)
      exact (entry_setTable t i.toNat grown e).trans (if_neg hne)
  case fill i =>
    refine post_bind.2 (h.popWord (by decide) fun len t h => ?_)
    refine post_bind.2 (h.pop (by decide) fun v t h => ?_)
    refine post_bind.2 (h.popWord (by decide) fun start t h => ?_)
    exact h.onTable rfl rfl rfl (Change.atomic_fill start v len)
  case copy i j =>
    refine post_bind.2 (h.popWord (by decide) fun len t h => ?_)
    refine post_bind.2 (h.popWord (by decide) fun src t h => ?_)
    refine post_bind.2 (h.popWord (by decide) fun dst t h => ?_)
    rw [copyTable_eq]
    refine post_bind.2 (h.table (Nat.le_refl _) fun u => ?_)
    refine post_bind.2 (h.table (Nat.le_refl _) fun source => ?_)
    exact h.put rfl rfl rfl (u.copyFrom dst source src len)
  case init i j =>
    refine post_bind.2 (h.popWord (by decide) fun len t h => ?_)
    refine post_bind.2 (h.popWord (by decide) fun src t h => ?_)
    refine post_bind.2 (h.popWord (by decide) fun dst t h => ?_)
    refine post_bind.2 (h.segment (Nat.le_refl _) fun items => ?_)
    exact h.onTable rfl rfl rfl (Change.atomic_init dst items src len)
  case dropSegment j =>
    refine post_bind.2 (h.segment (Nat.le_refl _) fun items => ?_)
    refine h.completed rfl [] rfl rfl fun e he => ?_
    have hne : e ≠ .segment j.toNat := fun heq => he (heq ▸ rfl)
    exact (entry_setSegment s j.toNat [] e).trans (if_neg hne)

/-! ## Invocations -/

namespace TableOp

variable {o : TableOp} {args : List Value} {s t : Store}

theorem invoke_of_ok (h : run o.execute { s with stack := args.reverse } = (.ok (), t)) :
    o.invoke args s = (.ok t.stack.reverse, { t with stack := [] }) := by
  rw [invoke, h]

theorem invoke_of_error {e : Error}
    (h : run o.execute { s with stack := args.reverse } = (.error e, t)) :
    o.invoke args s = (.error (.unlocated e), { t with stack := [] }) := by
  rw [invoke, h]

end TableOp

end WasmCheck
