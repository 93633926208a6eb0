import WasmCheck.Proofs.Table.Writes

/-!
# Ranges are written at once

Filling, copying and initialising write a range of one table and nothing else. Their operands are
words, but where a range ends is counted without a limit, so that no range wraps around. What is
written is what the source held before, also where the source is the table itself and the two ranges
overlap.
-/

namespace WasmCheck

open Attempt

namespace Table

/-- In the second table the range holds new elements, and all else is as in the first. -/
structure Overwritten (t t' : Table) (start len : UInt32) (new : Nat → Option Value) : Prop where
  type : t'.type = t.type
  size : t'.elements.size = t.elements.size
  inside : ∀ k < len.toNat, t'.elements[start.toNat + k]? = new k
  outside : ∀ p, p < start.toNat ∨ start.toNat + len.toNat ≤ p →
    t'.elements[p]? = t.elements[p]?

/-- The outcome is a trap exactly if some range exceeds its bounds. If none does and the items are
of the right type, then it is the table with the range overwritten. -/
structure WritesRange (t : Table) (r : Except Error Table) (start len : UInt32)
    (exceeds typed : Prop) (new : Nat → Option Value) : Prop where
  traps : (∃ e, r = .error e ∧ e.isTrap = true) ↔ exceeds
  writes : ¬exceeds → typed → ∃ t', r = .ok t' ∧ t.Overwritten t' start len new

section
variable {t source : Table} {r : Except Error Table} {start len dst src : UInt32}
  {exceeds typed : Prop} {new : Nat → Option Value}

theorem Overwritten.eq_of_empty {t' : Table} (h : t.Overwritten t' start 0 new) : t' = t := by
  obtain ⟨type, elements⟩ := t
  obtain ⟨type', elements'⟩ := t'
  have htype : type' = type := h.type
  have helements : elements' = elements := by
    refine Array.ext_getElem? fun p => h.outside p ?_
    show p < start.toNat ∨ start.toNat + 0 ≤ p
    omega
  rw [htype, helements]

theorem overwritten {items : Array Value} (hsize : items.size = len.toNat)
    (hfits : start.toNat + len.toNat ≤ t.elements.size)
    (hnew : ∀ k < len.toNat, items[k]? = new k) :
    t.Overwritten { t with elements := overwrite t.elements start.toNat items } start len new := by
  have hfits' : start.toNat + items.size ≤ t.elements.size := by omega
  refine ⟨rfl, size_overwrite hfits', fun k hk => ?_, fun p hp => ?_⟩
  · rw [getElem?_overwrite hfits', if_pos (by omega), Nat.add_sub_cancel_left]
    exact hnew k hk
  · rw [getElem?_overwrite hfits', if_neg (by omega)]

/-! ## Checks before the writing -/

theorem WritesRange.of_overwritten {t' : Table} (h : t.Overwritten t' start len new) :
    t.WritesRange (.ok t') start len False typed new where
  traps := ⟨fun ⟨_, he, _⟩ => (nomatch he), False.elim⟩
  writes _ _ := ⟨t', rfl, h⟩

theorem WritesRange.checkRange (op : String) {a n : UInt32} {size : Nat}
    (h : a.toNat + n.toNat ≤ size → t.WritesRange r start len exceeds typed new) :
    t.WritesRange (do checkRange op a n size; r) start len
      (size < a.toNat + n.toNat ∨ exceeds) typed new := by
  by_cases hn : a.toNat + n.toNat ≤ size
  · have hin : ¬size < a.toNat + n.toNat := Nat.not_lt.2 hn
    rw [checkRange_eq_ok_iff.2 hn]
    have hor : exceeds ↔ size < a.toNat + n.toNat ∨ exceeds := by rw [or_iff_right hin]
    exact ⟨(h hn).traps.trans hor, fun he => (h hn).writes fun h' => he (.inr h')⟩
  · have hout : size < a.toNat + n.toNat := Nat.lt_of_not_le hn
    have herror : Table.checkRange op a n size = .error (.tableRange op) := if_neg hn
    rw [herror]
    exact ⟨⟨fun _ => .inl hout, fun _ => ⟨_, rfl, rfl⟩⟩, fun he => (he (.inl hout)).elim⟩

theorem not_trap_of_checkElements {e : Error} {type : RefType} {vs : List Value}
    (h : checkElements type vs = .error e) : e.isTrap = false := by
  induction vs with
  | nil => cases h
  | cons v vs ih =>
    by_cases hv : v.type = type.toValueType
    · rw [checkElements, checkElement_eq_ok_iff.2 hv] at h
      exact ih h
    · have herror : checkElement type v = .error (.elementType type v.type) := if_neg hv
      rw [checkElements, herror] at h
      cases h
      rfl

theorem WritesRange.checkElements {type : RefType} {vs : List Value}
    (h : t.WritesRange r start len False (∀ v ∈ vs, v.type = type.toValueType) new) :
    t.WritesRange (do checkElements type vs; r) start len False
      (∀ v ∈ vs, v.type = type.toValueType) new := by
  cases hc : Table.checkElements type vs with
  | ok _ => exact h
  | error e =>
    refine ⟨⟨fun ⟨e', he, htrap⟩ => ?_, False.elim⟩, fun _ hv => ?_⟩
    · cases he
      rw [not_trap_of_checkElements hc] at htrap
      cases htrap
    · rw [checkElements_eq_ok_iff.2 hv] at hc
      cases hc

/-! ## The operations -/

theorem writesRange_copyFrom (he : source.type.element = t.type.element) (dst src len : UInt32) :
    t.WritesRange (t.copyFrom dst source src len) dst len
      (source.elements.size < src.toNat + len.toNat ∨ t.elements.size < dst.toNat + len.toNat)
      True (fun k => source.elements[src.toNat + k]?) := by
  rw [copyFrom_eq, checkSameType_eq_ok_iff.2 he, ← or_false (t.elements.size < _)]
  refine .checkRange _ fun hs => .checkRange _ fun hd => .of_overwritten (overwritten ?_ hd ?_)
  · rw [Array.size_extract]
    omega
  · intro k hk
    rw [Array.getElem?_extract, if_pos (by omega)]

theorem writesRange_fill {v : Value} (hv : v.type = t.type.element.toValueType)
    (start len : UInt32) :
    t.WritesRange (t.fill start v len) start len (t.elements.size < start.toNat + len.toNat)
      True (fun _ => some v) := by
  rw [fill_eq, checkElement_eq_ok_iff.2 hv, ← or_false (t.elements.size < _)]
  refine .checkRange _ fun hr => .of_overwritten (overwritten Array.size_replicate hr ?_)
  intro k hk
  rw [Array.getElem?_replicate, if_pos hk]

theorem writesRange_init (items : List Value) (dst src len : UInt32) :
    t.WritesRange (t.init dst items src len) dst len
      (items.length < src.toNat + len.toNat ∨ t.elements.size < dst.toNat + len.toNat)
      (∀ v ∈ (items.drop src.toNat).take len.toNat, v.type = t.type.element.toValueType)
      (fun k => items[src.toNat + k]?) := by
  rw [init_eq, ← or_false (t.elements.size < _)]
  refine .checkRange _ fun hs => .checkRange _ fun hd => .checkElements (.of_overwritten ?_)
  refine overwritten ?_ hd ?_
  · rw [List.size_toArray, List.length_take, List.length_drop]
    omega
  · intro k hk
    rw [List.getElem?_toArray, List.getElem?_take_of_lt hk, List.getElem?_drop]

end

end Table

namespace Store

structure Overwritten (s s' : Store) (i start len : UInt32) (new : Nat → Option Value) :
    Prop where
  changed : ∃ t t', s.tables[i.toNat]? = some t ∧ s'.tables[i.toNat]? = some t' ∧
    t.Overwritten t' start len new
  others : ∀ j, j ≠ i.toNat → s'.tables[j]? = s.tables[j]?
  segments : s'.segments = s.segments
  stack : s'.stack = s.stack

def EndsInTrap (x : Exec Unit) (s : Store) : Prop :=
  ∃ e s', run x s = (.error e, s') ∧ e.isTrap = true

/-- The attempt traps exactly if some range exceeds its bounds. If none does and the items are of
the right type, then it overwrites a range of one table. -/
structure Overwrites (x : Exec Unit) (s : Store) (i start len : UInt32) (exceeds typed : Prop)
    (new : Nat → Option Value) : Prop where
  traps : EndsInTrap x s ↔ exceeds
  writes : ¬exceeds → typed → ∃ s', run x s = (.ok (), s') ∧ s.Overwritten s' i start len new

/-- Copies from a clone of the source that is made first. -/
def copyClone (i dst j src len : UInt32) : Exec Unit := do
  let source ← table j
  onTable i (.copyFrom dst source src len)

section
variable {s : Store} {i j start len : UInt32} {t source : Table} {exceeds typed : Prop}
  {new : Nat → Option Value} {x y : Exec Unit}

theorem Overwritten.eq_of_empty {s' : Store} (h : s.Overwritten s' i start 0 new) : s' = s := by
  obtain ⟨tables, segments, stack⟩ := s
  obtain ⟨tables', segments', stack'⟩ := s'
  have hsegments : segments' = segments := h.segments
  have hstack : stack' = stack := h.stack
  have htables : tables' = tables := by
    refine List.ext_getElem? fun j => ?_
    by_cases hj : j = i.toNat
    · obtain ⟨t, t', ht, ht', htt⟩ := h.changed
      rw [hj]
      exact ht'.trans (htt.eq_of_empty ▸ ht.symm)
    · exact h.others j hj
  rw [hsegments, hstack, htables]

theorem Overwrites.empty (h : Overwrites x s i start 0 exceeds typed new) (he : ¬exceeds)
    (ht : typed) : run x s = (.ok (), s) := by
  obtain ⟨s', hr, hs⟩ := h.writes he ht
  rw [hr, hs.eq_of_empty]

theorem Overwrites.congr (h : Overwrites y s i start len exceeds typed new)
    (hr : run x s = run y s) : Overwrites x s i start len exceeds typed new := by
  have htraps : EndsInTrap x s ↔ EndsInTrap y s := by
    unfold EndsInTrap
    rw [hr]
  exact ⟨htraps.trans h.traps, hr ▸ h.writes⟩

/-! ## One table is changed -/

theorem run_segment_of_some {items : List Value} (hj : s.segments[j.toNat]? = some items) :
    run (segment j) s = (.ok items, s) := by
  rw [run, segment, hj]

theorem overwritten_set {t' : Table} (ht : s.tables[i.toNat]? = some t)
    (h : t.Overwritten t' start len new) :
    s.Overwritten { s with tables := s.tables.set i.toNat t' } i start len new where
  changed :=
    ⟨t, t', ht, List.getElem?_set_self (List.getElem?_eq_some_iff.1 ht).1, h⟩
  others _ hj := List.getElem?_set_ne hj.symm
  segments := rfl
  stack := rfl

/-- What a change writes in its table, it writes in the store. -/
theorem overwrites_onTable {x : Change Unit} (hx : x.Atomic) (ht : s.tables[i.toNat]? = some t)
    (h : t.WritesRange (x.final t) start len exceeds typed new) :
    Overwrites (onTable i x) s i start len exceeds typed new := by
  have hrun := run_changeTable ht x.final
  rw [← onTable_of_atomic hx] at hrun
  refine ⟨Iff.trans ⟨?_, ?_⟩ h.traps, fun he htyped => ?_⟩
  · rintro ⟨e, s', hr, htrap⟩
    rw [hrun] at hr
    cases hf : x.final t with
    | ok t' =>
      rw [hf] at hr
      cases hr
    | error e' =>
      rw [hf] at hr
      cases hr
      exact ⟨_, rfl, htrap⟩
  · rintro ⟨e, hf, htrap⟩
    rw [hf] at hrun
    exact ⟨e, s, hrun, htrap⟩
  · obtain ⟨t', hf, hover⟩ := h.writes he htyped
    rw [hf] at hrun
    exact ⟨_, hrun, overwritten_set ht hover⟩

/-! ## The operations -/

theorem run_copyClone (hj : s.tables[j.toNat]? = some source) (dst src len : UInt32) :
    run (copyClone i dst j src len) s =
      run (onTable i (.copyFrom dst source src len)) s := by
  rw [copyClone, run_bind_of_ok (run_table_of_some hj)]

/-- It makes no difference whether the source is cloned, and which of the two tables is looked up
first. -/
theorem run_copyTable (ht : s.tables[i.toNat]? = some t)
    (hj : s.tables[j.toNat]? = some source) (dst src len : UInt32) :
    run (copyTable i dst j src len) s = run (copyClone i dst j src len) s := by
  have hi := run_table_of_some ht
  have hs := run_table_of_some hj
  rw [copyTable_eq, run_bind_of_ok hi, run_bind_of_ok hs, run_copyClone hj,
    onTable_of_atomic (Change.atomic_copyFrom dst source src len), changeTable, run_bind_of_ok hi]
  rfl

theorem run_initTable {items : List Value} (hj : s.segments[j.toNat]? = some items)
    (dst src len : UInt32) :
    run (initTable i dst j src len) s = run (onTable i (.init dst items src len)) s := by
  rw [initTable, run_bind_of_ok (run_segment_of_some hj)]

theorem run_dropSegment {items : List Value} (hj : s.segments[j.toNat]? = some items) :
    run (dropSegment j) s = (.ok (), { s with segments := s.segments.set j.toNat [] }) := by
  rw [dropSegment, run_bind_of_ok (run_segment_of_some hj)]
  rfl

theorem overwrites_copyTable (ht : s.tables[i.toNat]? = some t)
    (hj : s.tables[j.toNat]? = some source) (he : source.type.element = t.type.element)
    (dst src len : UInt32) :
    Overwrites (copyTable i dst j src len) s i dst len
      (source.elements.size < src.toNat + len.toNat ∨ t.elements.size < dst.toNat + len.toNat)
      True (fun k => source.elements[src.toNat + k]?) := by
  have h := overwrites_onTable (Change.atomic_copyFrom dst source src len) ht
    (t.writesRange_copyFrom he dst src len)
  exact h.congr ((run_copyTable ht hj dst src len).trans (run_copyClone hj dst src len))

theorem overwrites_initTable {items : List Value} (ht : s.tables[i.toNat]? = some t)
    (hj : s.segments[j.toNat]? = some items) (dst src len : UInt32) :
    Overwrites (initTable i dst j src len) s i dst len
      (items.length < src.toNat + len.toNat ∨ t.elements.size < dst.toNat + len.toNat)
      (∀ v ∈ (items.drop src.toNat).take len.toNat, v.type = t.type.element.toValueType)
      (fun k => items[src.toNat + k]?) := by
  have h := overwrites_onTable (Change.atomic_init dst items src len) ht
    (t.writesRange_init items dst src len)
  exact h.congr (run_initTable hj dst src len)

/-- A segment that was dropped is empty, and no others are. -/
theorem overwrites_initTable_of_dropped {items : List Value} (ht : s.tables[i.toNat]? = some t)
    (hj : s.segments[j.toNat]? = some items) :
    ∃ s', run (dropSegment j) s = (.ok (), s') ∧ ∀ dst src len : UInt32,
      Overwrites (initTable i dst j src len) s' i dst len
        (0 < src.toNat + len.toNat ∨ t.elements.size < dst.toNat + len.toNat) True
        (fun _ => none) := by
  refine ⟨_, run_dropSegment hj, fun dst src len => ?_⟩
  have hdropped : (s.segments.set j.toNat [])[j.toNat]? = some [] :=
    List.getElem?_set_self (List.getElem?_eq_some_iff.1 hj).1
  have h := overwrites_initTable
    (s := { s with segments := s.segments.set j.toNat [] }) ht hdropped dst src len
  refine ⟨h.traps, fun he _ => h.writes he fun v hv => ?_⟩
  rw [List.drop_nil, List.take_nil] at hv
  cases hv

end

/-- Copying, filling and initialising trap exactly if a range exceeds its bounds. Otherwise they
write the range of the one table, and nothing else. An empty range may start where the bounds
end. -/
theorem overwrites_bulk (s : Store) (i : UInt32) (t : Table) (ht : s.tables[i.toNat]? = some t) :
    (∀ (j : UInt32) (source : Table), s.tables[j.toNat]? = some source →
      source.type.element = t.type.element → ∀ dst src len : UInt32,
      Overwrites (copyTable i dst j src len) s i dst len
        (source.elements.size < src.toNat + len.toNat ∨ t.elements.size < dst.toNat + len.toNat)
        True (fun k => source.elements[src.toNat + k]?) ∧
      run (copyTable i dst j src len) s = run (copyClone i dst j src len) s ∧
      (src.toNat ≤ source.elements.size → dst.toNat ≤ t.elements.size →
        run (copyTable i dst j src 0) s = (.ok (), s)) ∧
      (source.elements.size < src.toNat ∨ t.elements.size < dst.toNat →
        EndsInTrap (copyTable i dst j src 0) s)) ∧
    (∀ v : Value, v.type = t.type.element.toValueType → ∀ start len : UInt32,
      Overwrites (onTable i (.fill start v len)) s i start len
        (t.elements.size < start.toNat + len.toNat) True (fun _ => some v) ∧
      (start.toNat ≤ t.elements.size →
        run (onTable i (.fill start v 0)) s = (.ok (), s)) ∧
      (t.elements.size < start.toNat → EndsInTrap (onTable i (.fill start v 0)) s)) ∧
    ∀ (j : UInt32) (items : List Value), s.segments[j.toNat]? = some items →
      (∀ dst src len : UInt32,
        Overwrites (initTable i dst j src len) s i dst len
          (items.length < src.toNat + len.toNat ∨ t.elements.size < dst.toNat + len.toNat)
          (∀ v ∈ (items.drop src.toNat).take len.toNat, v.type = t.type.element.toValueType)
          (fun k => items[src.toNat + k]?) ∧
        (src.toNat ≤ items.length → dst.toNat ≤ t.elements.size →
          run (initTable i dst j src 0) s = (.ok (), s)) ∧
        (items.length < src.toNat ∨ t.elements.size < dst.toNat →
          EndsInTrap (initTable i dst j src 0) s)) ∧
      ∃ s', run (dropSegment j) s = (.ok (), s') ∧ ∀ dst src len : UInt32,
        Overwrites (initTable i dst j src len) s' i dst len
          (0 < src.toNat + len.toNat ∨ t.elements.size < dst.toNat + len.toNat) True
          (fun _ => none) := by
  refine ⟨fun j source hj he dst src len => ?_, fun v hv start len => ?_, fun j items hj => ?_⟩
  · have h (n : UInt32) := overwrites_copyTable ht hj he dst src n
    refine ⟨h len, run_copyTable ht hj dst src len, fun hs hd => ?_, (h 0).traps.2⟩
    refine (h 0).empty ?_ trivial
    show ¬(source.elements.size < src.toNat + 0 ∨ t.elements.size < dst.toNat + 0)
    omega
  · have h (n : UInt32) := overwrites_onTable (Change.atomic_fill start v n) ht
      (t.writesRange_fill hv start n)
    refine ⟨h len, fun hs => ?_, (h 0).traps.2⟩
    exact (h 0).empty (Nat.not_lt.2 hs) trivial
  · refine ⟨fun dst src len => ?_, overwrites_initTable_of_dropped ht hj⟩
    have h (n : UInt32) := overwrites_initTable ht hj dst src n
    refine ⟨h len, fun hs hd => ?_, (h 0).traps.2⟩
    refine (h 0).empty ?_ fun v hv => ?_
    · show ¬(items.length < src.toNat + 0 ∨ t.elements.size < dst.toNat + 0)
      omega
    · change v ∈ List.take 0 _ at hv
      rw [List.take_zero] at hv
      cases hv

def fourFunctions : Store :=
  ⟨[⟨⟨.funcref, ⟨4, none⟩⟩,
    #[.funcref (some 5), .funcref (some 6), .funcref (some 7), .funcref (some 8)]⟩], [], []⟩

/-- Three functions are moved up by one, over each other. At the greatest index no two fit, and at
the end of the table none do. -/
theorem overwrites_bulk_overlapping :
    (∃ s' t', run (copyTable 0 1 0 0 3) fourFunctions = (.ok (), s') ∧
      s'.tables[0]? = some t' ∧ t'.elements[0]? = some (.funcref (some 5)) ∧
      t'.elements[1]? = some (.funcref (some 5)) ∧ t'.elements[2]? = some (.funcref (some 6)) ∧
      t'.elements[3]? = some (.funcref (some 7))) ∧
    EndsInTrap (copyTable 0 0xFFFFFFFF 0 0 2) fourFunctions ∧
    run (copyTable 0 4 0 4 0) fourFunctions = (.ok (), fourFunctions) := by
  have h := (overwrites_bulk fourFunctions 0 _ rfl).1 0 _ rfl rfl
  refine ⟨?_, (h 0xFFFFFFFF 0 2).1.traps.2 (by decide), (h 4 4 0).2.2.1 (by decide) (by decide)⟩
  obtain ⟨s', hr, hover⟩ := (h 1 0 3).1.writes (by decide) trivial
  obtain ⟨t, t', ht, ht', htt⟩ := hover.changed
  cases ht
  exact ⟨s', t', hr, ht', htt.outside 0 (by decide), htt.inside 0 (by decide),
    htt.inside 1 (by decide), htt.inside 2 (by decide)⟩

end Store

end WasmCheck
