import WasmCheck.Proofs.Table.Writes

/-!
# The history of a store

A store starts empty and is worked on by operations of any kind, some of which fail. Tables and
segments are never taken away. A table keeps its type and does not shrink, its elements are of its
type, and its size lies between its limits. A segment keeps its items until it is dropped, and then
it stays empty.
-/

namespace WasmCheck

open Attempt

namespace Table

/-- The elements are of the declared type, and there are as many as the limits allow. -/
structure WellFormed (t : Table) : Prop where
  elements : t.Uniform
  limits : ∀ max ∈ t.type.limits.max, t.type.limits.min ≤ max
  min_le : t.type.limits.min.toNat ≤ t.elements.size
  le_max : t.elements.size ≤ min (t.type.limits.max.getD 0xFFFFFFFF).toNat maxTableSize.toNat
  /-- The size is counted without loss. -/
  size_eq : t.size.toNat = t.elements.size

structure Later (t t' : Table) : Prop where
  type : t'.type = t.type
  size_le : t.elements.size ≤ t'.elements.size

theorem Later.refl (t : Table) : Later t t := ⟨rfl, Nat.le_refl _⟩

theorem Later.trans {t u v : Table} (h : Later t u) (h' : Later u v) : Later t v :=
  ⟨h'.type.trans h.type, Nat.le_trans h.size_le h'.size_le⟩

variable {t t' : Table} {a : Action}

/-! ## Sizes -/

theorem toNat_bound (t : Table) :
    t.bound.toNat = min (t.type.limits.max.getD 0xFFFFFFFF).toNat maxTableSize.toNat := by
  unfold bound
  cases t.type.limits.max with
  | none => rfl
  | some max =>
    show (if max ≤ maxTableSize then max else maxTableSize).toNat = min max.toNat _
    split
    · next h => exact (Nat.min_eq_left h).symm
    · next h => exact (Nat.min_eq_right (Nat.le_of_lt (UInt32.not_le.1 h))).symm

theorem bound_le (t : Table) : t.bound.toNat ≤ maxTableSize.toNat := by
  rw [toNat_bound]
  exact Nat.min_le_right ..

theorem maxTableSize_lt : maxTableSize.toNat < 0xFFFFFFFF := by decide

theorem toNat_size_of_le (h : t.elements.size ≤ maxTableSize.toNat) :
    t.size.toNat = t.elements.size := by
  have := maxTableSize_lt
  exact UInt32.toNat_ofNatClamp_of_lt (Nat.lt_of_le_of_lt h (Nat.lt_succ_of_lt this))

theorem toNat_size_of_lt (h : t.size.toNat < 0xFFFFFFFF) : t.size.toNat = t.elements.size := by
  unfold size UInt32.ofNatClamp at *
  split
  · rfl
  · next hn =>
    rw [dif_neg hn] at h
    exact absurd h (by decide)

/-- An operation keeps the type and never shrinks the table; if it grows it, then up to the bound at
most. -/
theorem Action.later_of_apply (h : a.apply t = .ok t') :
    t.Later t' ∧ t'.elements.size ≤ max t.elements.size t.bound.toNat := by
  have same (ht : t'.type = t.type) (hs : t'.elements.size = t.elements.size) :
      t.Later t' ∧ t'.elements.size ≤ max t.elements.size t.bound.toNat :=
    ⟨⟨ht, Nat.le_of_eq hs.symm⟩, Nat.le_trans (Nat.le_of_eq hs) (Nat.le_max_left ..)⟩
  have copied {dst src len : UInt32} {source : Table}
      (h : t.copyFrom dst source src len = .ok t') :
      t.Later t' ∧ t'.elements.size ≤ max t.elements.size t.bound.toNat := by
    obtain ⟨-, hs, hd, rfl⟩ := copyFrom_eq_ok h
    refine same rfl (size_overwrite ?_)
    rw [Array.size_extract]
    omega
  cases a with
  | get i =>
    simp only [apply_get, Except.bind_eq_ok_iff, Except.pure_eq_ok_iff] at h
    obtain ⟨_, -, rfl⟩ := h
    exact same rfl rfl
  | set i v =>
    obtain ⟨-, hi, rfl⟩ := set_eq_ok h
    exact same rfl (Array.size_set hi)
  | grow delta v =>
    simp only [apply_grow, Except.bind_eq_ok_iff, Except.pure_eq_ok_iff] at h
    obtain ⟨r, hr, rfl⟩ := h
    cases r with
    | none => exact same rfl rfl
    | some t' =>
      obtain ⟨-, hb, rfl⟩ := grow_eq_ok hr
      have hbound := t.bound_le
      have hmax := maxTableSize_lt
      have hsize := toNat_size_of_lt (t := t) (by omega)
      refine ⟨⟨rfl, ?_⟩, Nat.le_trans ?_ (Nat.le_max_right ..)⟩ <;>
        simp only [Option.getD_some, Array.size_append, Array.size_replicate] <;> omega
  | fill start v len =>
    obtain ⟨-, hr, rfl⟩ := fill_eq_ok h
    exact same rfl (size_overwrite (by rwa [Array.size_replicate]))
  | copyWithin dst src len =>
    rw [apply_copyWithin] at h
    exact copied h
  | copyFrom dst source src len => exact copied h
  | init dst segment src len =>
    obtain ⟨-, hs, hd, rfl⟩ := init_eq_ok h
    refine same rfl (size_overwrite ?_)
    rw [List.size_toArray, List.length_take, List.length_drop]
    omega

/-! ## Tables that come about -/

theorem apply_of_grow {delta : UInt32} {v : Value} (h : t.grow delta v = .ok (some t')) :
    (Action.grow delta v).apply t = .ok t' := by
  rw [Action.apply_grow, h]
  rfl

theorem Built.apply (h : t.Built) (hs : ∀ u ∈ a.sources, u.Built) (ha : a.apply t = .ok t') :
    t'.Built := by
  cases a with
  | get i =>
    simp only [Action.apply_get, Except.bind_eq_ok_iff, Except.pure_eq_ok_iff] at ha
    obtain ⟨_, -, rfl⟩ := ha
    exact h
  | set i v => exact h.set ha
  | grow delta v =>
    simp only [Action.apply_grow, Except.bind_eq_ok_iff, Except.pure_eq_ok_iff] at ha
    obtain ⟨r, hr, rfl⟩ := ha
    cases r with
    | none => exact h
    | some t' => exact h.grow hr
  | fill start v len => exact h.fill ha
  | copyWithin dst src len =>
    rw [Action.apply_copyWithin] at ha
    exact h.copyFrom h ha
  | copyFrom dst source src len => exact h.copyFrom (hs source (by simp)) ha
  | init dst segment src len => exact h.init ha

/-- The limits are in order, and the size is between the declared minimum and the bound. -/
structure Within (t : Table) : Prop where
  limits : ∀ max ∈ t.type.limits.max, t.type.limits.min ≤ max
  min_le : t.type.limits.min.toNat ≤ t.elements.size
  le_bound : t.elements.size ≤ t.bound.toNat

theorem within_of_filled {type : TableType} {v : Value} (h : filled type v = .ok t) :
    t.Within := by
  obtain ⟨-, hl, hm, rfl⟩ := filled_eq_ok h
  refine ⟨hl, by simp, ?_⟩
  rw [toNat_bound, Array.size_replicate, Nat.le_min]
  refine ⟨?_, hm⟩
  cases hmax : type.limits.max with
  | none => exact Nat.le_of_lt_succ (UInt32.toNat_lt _)
  | some max => exact hl max hmax

theorem Within.apply (h : t.Within) (ha : a.apply t = .ok t') : t'.Within := by
  obtain ⟨⟨htype, hle⟩, hmax⟩ := Action.later_of_apply ha
  obtain ⟨hl, hmin, hb⟩ := h
  have hbound : t'.bound = t.bound := by rw [bound, bound, htype]
  refine ⟨by rwa [htype], ?_, ?_⟩
  · rw [htype]
    omega
  · rw [hbound]
    omega

theorem Built.within (h : t.Built) : t.Within := by
  induction h with
  | filled h => exact within_of_filled h
  | set _ h ih => exact ih.apply (a := .set _ _) h
  | grow _ h ih => exact ih.apply (apply_of_grow h)
  | fill _ h ih => exact ih.apply (a := .fill _ _ _) h
  | copyFrom _ _ h ih => exact ih.apply (a := .copyFrom _ _ _ _) h
  | init _ h ih => exact ih.apply (a := .init _ _ _ _) h

theorem Built.wellFormed (h : t.Built) : t.WellFormed := by
  obtain ⟨hl, hmin, hmax⟩ := h.within
  have hsize := Nat.le_trans hmax t.bound_le
  exact ⟨h.uniform, hl, hmin, by rwa [← toNat_bound], toNat_size_of_le hsize⟩

/-! ## The greatest index -/

theorem WellFormed.get_max (h : t.WellFormed) :
    t.get 0xFFFFFFFF = .error (.tableAccess "table.get" 0xFFFFFFFF t.size) := by
  have hmax := maxTableSize_lt
  have hsize := h.le_max
  have hnone : t.elements[(0xFFFFFFFF : UInt32).toNat]? = none :=
    Array.getElem?_eq_none (by show _ ≤ 0xFFFFFFFF; omega)
  rw [get, hnone]

theorem WellFormed.set_max (h : t.WellFormed) {v : Value}
    (hv : v.type = t.type.element.toValueType) :
    t.set 0xFFFFFFFF v = .error (.tableAccess "table.set" 0xFFFFFFFF t.size) := by
  have hmax := maxTableSize_lt
  have hsize := h.le_max
  have hn : ¬(0xFFFFFFFF : UInt32).toNat < t.elements.size := by
    show ¬0xFFFFFFFF < _
    omega
  rw [set_eq, checkElement_eq_ok_iff.2 hv]
  simp only [bind, Except.bind, hn, dite_false]
  rfl

end Table

namespace Store

/-! ## Operations in sequence -/

/-- An operation on a store. A table may be changed directly, with any other table as a source. -/
inductive Action where
  | addTable (type : TableType)
  | addSegment (items : List Value)
  | push (v : Value)
  | pop
  | execute (o : TableOp)
  | invoke (o : TableOp) (args : List Value)
  | copyTable (i dst j src len : UInt32)
  | initTable (i dst j src len : UInt32)
  | dropSegment (i : UInt32)
  | change (i : UInt32) (a : Table.Action) (h : ∀ u ∈ a.sources, u.Built)

/-- The store after the operation, whether it succeeds or not. -/
def Action.apply : Action → Store → Store
  | addTable type, s => (run (Store.addTable type) s).2
  | addSegment items, s => (run (Store.addSegment items) s).2
  | push v, s => (run (Store.push v) s).2
  | pop, s => (run Store.pop s).2
  | execute o, s => (run o.execute s).2
  | invoke o args, s => (o.invoke args s).2
  | copyTable i dst j src len, s => (run (Store.copyTable i dst j src len) s).2
  | initTable i dst j src len, s => (run (Store.initTable i dst j src len) s).2
  | dropSegment i, s => (run (Store.dropSegment i) s).2
  | change i a _, s => (run (onTable i a.perform) s).2

def after (s : Store) (as : List Action) : Store := as.foldl (fun s a => a.apply s) s

structure Later (s s' : Store) : Prop where
  tables : ∀ (i : Nat) (t : Table), s.tables[i]? = some t →
    ∃ t', s'.tables[i]? = some t' ∧ t.Later t'
  segments : ∀ (i : Nat) (items : List Value), s.segments[i]? = some items →
    s'.segments[i]? = some items ∨ s'.segments[i]? = some []

def Built (s : Store) : Prop := ∀ t ∈ s.tables, t.Built

theorem Later.refl (s : Store) : Later s s :=
  ⟨fun _ t ht => ⟨t, ht, .refl t⟩, fun _ _ hi => .inl hi⟩

theorem Later.trans {s t u : Store} (h : Later s t) (h' : Later t u) : Later s u where
  tables i x hx := by
    obtain ⟨y, hy, hxy⟩ := h.tables i x hx
    obtain ⟨z, hz, hyz⟩ := h'.tables i y hy
    exact ⟨z, hz, hxy.trans hyz⟩
  segments i items hi := by
    rcases h.segments i items hi with hi | hi
    · exact h'.segments i items hi
    · exact .inr ((h'.segments i [] hi).elim id id)

section Step
variable {s s' : Store} {α : Type}

theorem Writes.built (h : Writes s s') (hs : s.Built) : s'.Built := by
  intro u hu
  cases h with
  | nothing h => exact hs u (h.tables ▸ hu)
  | @table i t t' a ht ha hr htables _ =>
    rw [htables] at hu
    rcases List.mem_or_eq_of_mem_set hu with hu | rfl
    · exact hs u hu
    · exact (hs t (List.mem_of_getElem? ht)).apply (fun v hv => (ha v hv).elim (hs v) id) hr
  | segment htables => exact hs u (htables ▸ hu)
  | newTable hnew htables =>
    rw [htables] at hu
    rcases List.mem_append.1 hu with hu | hu
    · exact hs u hu
    · rw [List.mem_singleton.1 hu]
      exact .filled hnew
  | newSegment htables => exact hs u (htables ▸ hu)

theorem Writes.later (h : Writes s s') : Later s s' := by
  have sameTables (h : s'.tables = s.tables) (i : Nat) (t : Table) (ht : s.tables[i]? = some t) :
      ∃ t', s'.tables[i]? = some t' ∧ t.Later t' := ⟨t, h ▸ ht, .refl t⟩
  have sameSegments (h : s'.segments = s.segments) (i : Nat) (items : List Value)
      (hi : s.segments[i]? = some items) :
      s'.segments[i]? = some items ∨ s'.segments[i]? = some [] := .inl (h ▸ hi)
  cases h with
  | nothing h => exact ⟨sameTables h.tables, sameSegments h.segments⟩
  | @table i u u' a hu _ hr htables hsegments =>
    refine ⟨fun j t ht => ?_, sameSegments hsegments⟩
    rw [htables]
    by_cases hij : i = j
    · subst hij
      rw [hu] at ht
      cases ht
      exact ⟨u', List.getElem?_set_self (List.getElem?_eq_some_iff.1 hu).1,
        (Table.Action.later_of_apply hr).1⟩
    · exact ⟨t, by rwa [List.getElem?_set_ne hij], .refl t⟩
  | @segment i htables hsegments =>
    refine ⟨sameTables htables, fun j items hj => ?_⟩
    rw [hsegments]
    by_cases hij : i = j
    · subst hij
      exact .inr (List.getElem?_set_self (List.getElem?_eq_some_iff.1 hj).1)
    · exact .inl (by rwa [List.getElem?_set_ne hij])
  | newTable _ htables hsegments =>
    refine ⟨fun i t ht => ⟨t, ?_, .refl t⟩, sameSegments hsegments⟩
    rw [htables, List.getElem?_append_left (List.getElem?_eq_some_iff.1 ht).1, ht]
  | newSegment htables hsegments =>
    refine ⟨sameTables htables, fun i items hi => .inl ?_⟩
    rw [hsegments, List.getElem?_append_left (List.getElem?_eq_some_iff.1 hi).1, hi]

theorem writes_of_post {x : Exec α} (h : Post x s (fun _ => Writes s) (fun _ => Same s)) :
    Writes s (run x s).2 := by
  rcases hr : run x s with ⟨_ | _, s'⟩
  · exact .nothing (h.of_error hr)
  · exact h.of_ok hr

theorem Writes.trans_same {t : Store} (h : Writes s t) (h' : Same t s') : Writes s s' := by
  cases h with
  | nothing h => exact .nothing ⟨h'.tables.trans h.tables, h'.segments.trans h.segments⟩
  | table hu ha hr ht hs => exact .table hu ha hr (h'.tables.trans ht) (h'.segments.trans hs)
  | segment ht hs => exact .segment (h'.tables.trans ht) (h'.segments.trans hs)
  | newTable hn ht hs => exact .newTable hn (h'.tables.trans ht) (h'.segments.trans hs)
  | newSegment ht hs => exact .newSegment (h'.tables.trans ht) (h'.segments.trans hs)

theorem writes_invoke (o : TableOp) (args : List Value) (s : Store) :
    Writes s (o.invoke args s).2 := by
  have hw := o.post_writes (s := s) (t := { s with stack := args.reverse }) ⟨rfl, rfl⟩
  unfold TableOp.invoke
  split
  · next s₁ hr =>
    have h : Writes s s₁ := hw.of_ok hr
    exact h.trans_same ⟨rfl, rfl⟩
  · next e s₁ hr =>
    have h : Same s s₁ := hw.of_error hr
    exact .nothing ⟨h.tables, h.segments⟩

theorem Action.writes (a : Action) (s : Store) : Writes s (a.apply s) := by
  have h := Same.refl s
  cases a with
  | addTable type => exact writes_of_post (h.addTable type)
  | addSegment items => exact .newSegment rfl rfl
  | push v => exact .nothing ⟨rfl, rfl⟩
  | pop => exact writes_of_post (h.pop fun _ _ => .nothing)
  | execute o => exact writes_of_post (o.post_writes h)
  | invoke o args => exact writes_invoke o args s
  | copyTable i dst j src len => exact writes_of_post (h.copyTable i dst j src len)
  | initTable i dst j src len => exact writes_of_post (h.initTable i dst j src len)
  | dropSegment i => exact writes_of_post (h.dropSegment i)
  | change i a ha => exact writes_of_post (h.onTable a fun u hu => .inr (ha u hu))

end Step

theorem built_after {s : Store} (h : s.Built) (as : List Action) : (s.after as).Built := by
  induction as generalizing s with
  | nil => exact h
  | cons a as ih => exact ih ((a.writes s).built h)

theorem later_after (s : Store) (as : List Action) : s.Later (s.after as) := by
  induction as generalizing s with
  | nil => exact .refl s
  | cons a as ih => exact (a.writes s).later.trans (ih (a.apply s))

/-! ## The greatest index in an instruction -/

def Traps (r : Except Diagnostic (List Value) × Store) : Prop :=
  ∃ d, r.1 = .error d ∧ d.error.isTrap = true

section Trap
variable {s : Store} {i : UInt32} {t : Table}

theorem traps_of_post {o : TableOp} {args : List Value}
    (h : Post o.execute { s with stack := args.reverse } (fun _ _ => False)
      (fun e _ => e.isTrap = true)) : Traps (o.invoke args s) := by
  unfold TableOp.invoke
  split
  · next hr => exact (h.of_ok hr).elim
  · next e s' hr => exact ⟨_, rfl, h.of_error hr⟩

theorem traps_get (ht : s.tables[i.toNat]? = some t) (hw : t.WellFormed) :
    Traps ((TableOp.get i).invoke [.i32 0xFFFFFFFF] s) := by
  refine traps_of_post (post_bind.2 (post_popWord_cons.2 ?_))
  rw [post_bind, post_table]
  simp only [ht, post_bind]
  rw [hw.get_max]
  rfl

theorem traps_set (ht : s.tables[i.toNat]? = some t) (hw : t.WellFormed) {v : Value}
    (hv : v.type = t.type.element.toValueType) :
    Traps ((TableOp.set i).invoke [.i32 0xFFFFFFFF, v] s) := by
  refine traps_of_post (post_bind.2 (post_pop.2 (post_bind.2 (post_popWord_cons.2 ?_))))
  rw [onTable_of_atomic (Change.atomic_set _ v), changeTable, post_bind, post_table]
  simp only [ht, post_bind]
  rw [show (Change.set 0xFFFFFFFF v).final t = _ from hw.set_max hv]
  rfl

end Trap

theorem built_empty : Built empty := fun _ ht => nomatch ht

/-- Whatever operations have led to a store and follow, its tables are well formed, they and the
segments stay, and the greatest index is out of bounds. -/
theorem wellFormed_after (as bs : List Action) :
    (∀ t ∈ (empty.after as).tables, t.WellFormed) ∧
    (empty.after as).Later ((empty.after as).after bs) ∧
    ∀ (i : UInt32) (t : Table), (empty.after as).tables[i.toNat]? = some t →
      Traps ((TableOp.get i).invoke [.i32 0xFFFFFFFF] (empty.after as)) ∧
      ∀ v : Value, v.type = t.type.element.toValueType →
        Traps ((TableOp.set i).invoke [.i32 0xFFFFFFFF, v] (empty.after as)) := by
  have hb := built_after built_empty as
  refine ⟨fun t ht => (hb t ht).wellFormed, later_after _ bs, fun i t ht => ?_⟩
  have hw := (hb t (List.mem_of_getElem? ht)).wellFormed
  exact ⟨traps_get ht hw, fun v hv => traps_set ht hw hv⟩

/-- A table is grown up to its maximum, no further, and refuses a number. -/
def grown : List Action :=
  [.addTable ⟨.externref, ⟨1, some 2⟩⟩, .addSegment [.externref (some 4), .i32 0],
    .invoke (.grow 0) [.externref (some 3), .i32 1], .invoke (.grow 0) [.externref none, .i32 1],
    .change 0 (.init 0 [.externref (some 4), .i32 0] 0 2) (by simp), .dropSegment 0]

theorem wellFormed_grown : ∃ t, (empty.after grown).tables[0]? = some t ∧ t.WellFormed ∧
    t.elements = #[.externref none, .externref (some 3)] :=
  ⟨_, rfl, (wellFormed_after grown []).1 _ (.head _), rfl⟩

end Store

end WasmCheck
