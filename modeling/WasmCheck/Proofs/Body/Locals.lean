import WasmCheck.Proofs.Lockstep
import WasmCheck.Proofs.Typing.Signature
import Mathlib.Algebra.Ring.Nat

/-!
# The index space of local variables

The variables of a body are its parameters and the expansion of its groups. They are never
expanded: counting and looking up walk over the groups. Here both are compared with the expansion.
It alone decides what is counted and found, so variables may be grouped in one way or another.
-/

namespace WasmCheck

/-! ## Counting -/

namespace LocalGroup

def types (gs : List LocalGroup) : List ValueType :=
  gs.flatMap fun g => List.replicate g.count.toNat g.type

theorem total_eq_sum (gs : List LocalGroup) : total gs = (gs.map (·.count.toNat)).sum := by
  induction gs with
  | nil => rfl
  | cons g gs ih => rw [total, ih, List.map_cons, List.sum_cons]

theorem length_types (gs : List LocalGroup) : (types gs).length = total gs := by
  induction gs with
  | nil => rfl
  | cons g gs ih =>
    rw [types, List.flatMap_cons, List.length_append, List.length_replicate, total, ← ih, types]

end LocalGroup

namespace Locals

variable {l : Locals} {i : UInt32} {max : UInt32}

theorem types_eq (l : Locals) : l.types = l.params ++ LocalGroup.types l.groups := rfl

theorem length_types (l : Locals) : l.types.length = l.total := by
  rw [types_eq, List.length_append, LocalGroup.length_types, total]

theorem toNat_size (h : l.total ≤ max.toNat) : l.size.toNat = l.total :=
  UInt32.toNat_ofNatClamp_of_lt (Nat.lt_of_le_of_lt h max.toNat_lt)

/-! ## Looking up -/

theorem typeOf_of_lt (h : i.toNat < l.types.length) : l.typeOf i = .ok l.types[i.toNat] :=
  typeOf_eq_ok_iff.2 (List.getElem?_eq_getElem h)

theorem typeOf_of_le (h : l.total ≤ i.toNat) : l.typeOf i = .error (.localOutOfRange l.size) := by
  unfold total at h
  have hparams : l.params[i.toNat]? = none := List.getElem?_eq_none (by omega)
  have hgroups : LocalGroup.type? l.groups (i.toNat - l.params.length) = none :=
    LocalGroup.type?_eq_none_iff.2 (by omega)
  rw [typeOf, hparams]
  simp only [hgroups]

/-! ## Grouping -/

/-- No question about the variables tells two index spaces apart. -/
structure Indistinct (l l' : Locals) : Prop where
  size : l.size = l'.size
  isEmpty : l.isEmpty = l'.isEmpty
  typeOf : ∀ i, l.typeOf i = l'.typeOf i

theorem total_eq_of_types {l l' : Locals} (h : l.types = l'.types) : l.total = l'.total := by
  rw [← length_types, ← length_types, h]

theorem indistinct_of_types {l l' : Locals} (h : l.types = l'.types) : l.Indistinct l' := by
  have htotal := total_eq_of_types h
  have hsize : l.size = l'.size := congrArg UInt32.ofNatClamp htotal
  refine ⟨hsize, congrArg (· == 0) htotal, fun i => ?_⟩
  by_cases hi : i.toNat < l.types.length
  · have hi' : i.toNat < l'.types.length := h ▸ hi
    rw [typeOf_of_lt hi, typeOf_of_lt hi']
    simp only [h]
  · rw [Nat.not_lt, length_types] at hi
    rw [typeOf_of_le hi, typeOf_of_le (htotal ▸ hi), hsize]

end Locals

namespace LocalGroup

def Interchangeable (gs gs' : List LocalGroup) : Prop :=
  ∀ params max, Coincide (fun _ => False) Locals.Indistinct (Locals.declare params gs max)
    (Locals.declare params gs' max)

variable {gs gs' : List LocalGroup} {t : ValueType}

theorem interchangeable_of_types (h : types gs = types gs') : Interchangeable gs gs' := by
  intro params max
  have htypes : (Locals.mk params gs).types = (Locals.mk params gs').types := by
    rw [Locals.types_eq, Locals.types_eq, h]
  simp only [Locals.declare, Locals.total_eq_of_types htypes]
  split
  · exact .error _
  · exact .ok (Locals.indistinct_of_types htypes)

theorem types_insert_empty : types (gs ++ ⟨0, t⟩ :: gs') = types (gs ++ gs') := by
  unfold types
  rw [List.flatMap_append, List.flatMap_append, List.flatMap_cons]
  rfl

theorem types_split {n c d : UInt32} (h : n.toNat = c.toNat + d.toNat) :
    types (gs ++ ⟨n, t⟩ :: gs') = types (gs ++ ⟨c, t⟩ :: ⟨d, t⟩ :: gs') := by
  unfold types
  rw [List.flatMap_append, List.flatMap_append, List.flatMap_cons, List.flatMap_cons,
    List.flatMap_cons, h, ← List.replicate_append_replicate, List.append_assoc]

end LocalGroup

namespace Locals

/-- Declaring local variables is refused exactly if there are too many of them, and the error tells
how many there would be. Otherwise they are the parameters and the expansion of the groups, in this
order, and a look-up behind them tells how many there are. Up to 64 bits it is the sum of words that
is compared. Empty groups make no difference, and neither does splitting a group or merging two. -/
theorem declare_expansion (params : List ValueType) (groups : List LocalGroup) (max : UInt32) :
    let total := params.length + (groups.map (·.count.toNat)).sum
    let types := params ++ LocalGroup.types groups
    (total < 2 ^ 64 → (Locals.mk params groups).wordTotal.toNat = total ∧
      declare params groups max =
        if max.toUInt64 < (Locals.mk params groups).wordTotal then
          .error (.tooManyLocals (Locals.mk params groups).wordTotal.toNat)
        else .ok ⟨params, groups⟩) ∧
    (max.toNat < total → ∃ e, declare params groups max = .error e ∧ e.category = .capacity ∧
      e.message = s!"local count too large: {total}") ∧
    (total ≤ max.toNat → ∃ l, declare params groups max = .ok l ∧ l.size.toNat = total ∧
      (∀ i, i.toNat < total → ∃ t, types[i.toNat]? = some t ∧ l.typeOf i = .ok t) ∧
      ∀ i, total ≤ i.toNat → ∃ e, l.typeOf i = .error e ∧ e.category = .validation ∧
        e.message = s!"local variable out of range (max {total})") ∧
    (∀ gs gs' t, groups = gs ++ ⟨0, t⟩ :: gs' →
      LocalGroup.Interchangeable groups (gs ++ gs')) ∧
    ∀ gs gs' n c d t, groups = gs ++ ⟨n, t⟩ :: gs' → n.toNat = c.toNat + d.toNat →
      LocalGroup.Interchangeable groups (gs ++ ⟨c, t⟩ :: ⟨d, t⟩ :: gs') := by
  intro total types
  have htotal : (Locals.mk params groups).total = total :=
    congrArg (params.length + ·) (LocalGroup.total_eq_sum groups)
  rw [← htotal]
  refine ⟨fun h => ⟨toNat_wordTotal h, declare_eq h max⟩, fun h => ?_, fun h => ?_, ?_, ?_⟩
  · exact ⟨_, if_pos h, rfl, rfl⟩
  · have hsize := toNat_size h
    refine ⟨_, if_neg (Nat.not_lt.2 h), hsize, fun i hi => ?_, fun i hi => ?_⟩
    · rw [← length_types] at hi
      exact ⟨_, List.getElem?_eq_getElem hi, typeOf_of_lt hi⟩
    · refine ⟨_, typeOf_of_le hi, rfl, ?_⟩
      rw [← hsize]
      rfl
  · rintro gs gs' t rfl
    exact LocalGroup.interchangeable_of_types LocalGroup.types_insert_empty
  · rintro gs gs' n c d t rfl h
    exact LocalGroup.interchangeable_of_types (LocalGroup.types_split h)

/-- Sixty-four bits count what thirty-two do not. With an empty group in between, a group of two
floats is found behind the parameter. -/
theorem declare_expansion_mixed :
    (∃ e, declare [.i32] [⟨0xFFFFFFFF, .i32⟩] 50000 = .error e ∧ e.category = .capacity ∧
      e.message = "local count too large: 4294967296") ∧
    ∃ l, declare [.i64] [⟨0, .funcref⟩, ⟨2, .f32⟩] 3 = .ok l ∧ l.size.toNat = 3 ∧
      l.typeOf 2 = .ok .f32 ∧
      ∃ e, l.typeOf 3 = .error e ∧ e.message = "local variable out of range (max 3)" := by
  constructor
  · exact (declare_expansion [.i32] [⟨0xFFFFFFFF, .i32⟩] 50000).2.1 (by decide)
  · obtain ⟨l, hl, hsize, hlt, hle⟩ :=
      (declare_expansion [.i64] [⟨0, .funcref⟩, ⟨2, .f32⟩] 3).2.2.1 (by decide)
    obtain ⟨t, ht, htype⟩ := hlt 2 (by decide)
    obtain ⟨e, he, -, hmessage⟩ := hle 3 (by decide)
    cases ht
    exact ⟨l, hl, hsize, htype, e, he, hmessage⟩

end Locals

end WasmCheck
