import WasmCheck.Error

/-!
# Local variables

The local variables of a body are the parameters of its function, followed by the declared ones.
Declarations come in groups of equal type and stay that way: a look-up walks over the groups, so
that a group of four thousand million locals costs no more than a group of one.
-/

namespace WasmCheck

structure LocalGroup where
  count : UInt32
  type : ValueType
deriving DecidableEq, Repr

namespace LocalGroup

def total : List LocalGroup → Nat
  | [] => 0
  | g :: gs => g.count.toNat + total gs

/-- The type of the variable at a position, counted through the groups. -/
def type? : List LocalGroup → Nat → Option ValueType
  | [], _ => none
  | g :: gs, i => if i < g.count.toNat then some g.type else type? gs (i - g.count.toNat)

theorem type?_eq_none_iff {gs : List LocalGroup} {i : Nat} : type? gs i = none ↔ total gs ≤ i := by
  induction gs generalizing i with
  | nil => simp [type?, total]
  | cons g gs ih =>
    by_cases h : i < g.count.toNat
    · simp only [type?, h, if_true, reduceCtorEq, false_iff, total]
      omega
    · simp only [type?, h, if_false, ih, total]
      omega

/-- Adding up words, where no sum exceeds 64 bits. -/
theorem toNat_foldl_count (gs : List LocalGroup) (n : UInt64)
    (h : n.toNat + total gs < UInt64.size) :
    (gs.foldl (fun n g => n + g.count.toUInt64) n).toNat = n.toNat + total gs := by
  induction gs generalizing n with
  | nil => rfl
  | cons g gs ih =>
    rw [total] at h ⊢
    have hadd : (n + g.count.toUInt64).toNat = n.toNat + g.count.toNat := by
      rw [UInt64.toNat_add, UInt32.toNat_toUInt64]
      exact Nat.mod_eq_of_lt (show _ < UInt64.size by omega)
    rw [List.foldl_cons, ih _ (by omega), hadd]
    omega

end LocalGroup

structure Locals where
  params : List ValueType
  groups : List LocalGroup
deriving DecidableEq, Repr

namespace Locals

def total (l : Locals) : Nat := l.params.length + LocalGroup.total l.groups

/-- The variables of a body that takes `params` and declares `groups`, if there are not too many. -/
def declare (params : List ValueType) (groups : List LocalGroup) (max : UInt32) :
    Except Error Locals :=
  let l : Locals := ⟨params, groups⟩
  if max.toNat < l.total then .error (.tooManyLocals l.total) else .ok l

/-- The number of variables as a word of 64 bits, added up group by group. -/
def wordTotal (l : Locals) : UInt64 :=
  l.groups.foldl (fun n g => n + g.count.toUInt64) (UInt64.ofNat l.params.length)

theorem toNat_wordTotal {l : Locals} (h : l.total < UInt64.size) : l.wordTotal.toNat = l.total := by
  unfold total at *
  have hparams : (UInt64.ofNat l.params.length).toNat = l.params.length :=
    UInt64.toNat_ofNat_of_lt' (by omega)
  rw [wordTotal, LocalGroup.toNat_foldl_count _ _ (by rwa [hparams]), hparams]

/-- The limit may be compared with the sum of words, unless that one wraps around. -/
theorem declare_eq {params : List ValueType} {groups : List LocalGroup}
    (h : (Locals.mk params groups).total < UInt64.size) (max : UInt32) :
    declare params groups max =
      if max.toUInt64 < (Locals.mk params groups).wordTotal then
        .error (.tooManyLocals (Locals.mk params groups).wordTotal.toNat)
      else .ok ⟨params, groups⟩ := by
  simp only [declare, UInt64.lt_iff_toNat_lt, UInt32.toNat_toUInt64, toNat_wordTotal h]

def size (l : Locals) : UInt32 := UInt32.ofNatClamp l.total

def isEmpty (l : Locals) : Bool := l.total == 0

def typeOf (l : Locals) (i : UInt32) : Except Error ValueType :=
  match l.params[i.toNat]? with
  | some t => .ok t
  | none =>
    match LocalGroup.type? l.groups (i.toNat - l.params.length) with
    | some t => .ok t
    | none => .error (.localOutOfRange l.size)

end Locals

end WasmCheck
