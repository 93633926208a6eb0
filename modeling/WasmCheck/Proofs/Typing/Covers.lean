import WasmCheck.Proofs.Stack.Innermost
import WasmCheck.Proofs.Typing.Basic

/-!
# The operand lists that a frame stands for

The checker keeps one list of operands for a frame, the most general one: `Covers u xs ss` says
that it stands for the operand types `ss`, the top first. Each operand is below the one it stands
for, and in unreachable code (`u`) more operands of any type may lie under those at hand. Popping is
inversion of `Covers`, and pushing is its introduction.
-/

namespace WasmCheck

open Operand (known unknown)
open Stack (fits closes)

inductive Covers (u : Bool) : List Operand → List Operand → Prop where
  | nil : Covers u [] []
  | gap (h : u = true) (ss : List Operand) : Covers u [] ss
  | cons {o p : Operand} {xs ss : List Operand} : o.Sub p → Covers u xs ss →
      Covers u (o :: xs) (p :: ss)

namespace Covers

variable {u : Bool} {xs ys ss ts : List Operand} {rs : List ValueType}

theorem refl (u : Bool) : ∀ xs : List Operand, Covers u xs xs
  | [] => .nil
  | x :: xs => .cons (.refl x) (refl u xs)

theorem trans (h : Covers u xs ys) (h' : Covers u ys ss) : Covers u xs ss := by
  induction h generalizing ss with
  | nil => exact h'
  | gap hu => exact .gap hu ss
  | cons ho _ ih =>
    cases h' with
    | cons hp h' => exact .cons (ho.trans hp) (ih h')

theorem push (h : SubAll xs ys) (hc : Covers u ss ts) : Covers u (xs ++ ss) (ys ++ ts) := by
  induction h with
  | nil => exact hc
  | cons ho _ ih => exact .cons ho ih

theorem split (h : Covers u (xs ++ ys) ss) :
    ∃ xs' ys', ss = xs' ++ ys' ∧ SubAll xs xs' ∧ Covers u ys ys' := by
  induction xs generalizing ss with
  | nil => exact ⟨[], ss, rfl, .nil, h⟩
  | cons x xs ih =>
    cases h with
    | cons ho h =>
      obtain ⟨xs', ys', rfl, hx, hy⟩ := ih h
      exact ⟨_ :: xs', ys', rfl, .cons ho hx, hy⟩

theorem subAll (h : Covers false xs ss) : SubAll xs ss := by
  have hs : Covers false (xs ++ []) ss := by rwa [List.append_nil]
  obtain ⟨xs', ys', rfl, hx, hy⟩ := hs.split
  cases hy with
  | nil => rwa [List.append_nil]
  | gap hu => cases hu

theorem length_le (h : Covers u xs ss) : xs.length ≤ ss.length := by
  induction h with
  | nil => exact Nat.le_refl _
  | gap => exact Nat.zero_le _
  | cons _ _ ih => exact Nat.succ_le_succ ih

theorem known_sub {o : Operand} {t : ValueType} : o.Sub (known t) ↔ o.fits t = true := by
  constructor
  · rintro (_ | _)
    · exact Operand.known_fits.2 rfl
    · rfl
  · intro h
    cases o with
    | known s => rw [Operand.known_fits.1 h]; exact .refl _
    | unknown => exact .bottom _

/-- Where types can be taken off, they may be read as lying on top. -/
theorem of_fits (h : fits u xs rs = true) : Covers u xs (knowns rs ++ xs.drop rs.length) := by
  induction xs generalizing rs with
  | nil =>
    cases rs with
    | nil => exact .nil
    | cons r rs => exact .gap h _
  | cons x xs ih =>
    cases rs with
    | nil => exact refl u _
    | cons r rs =>
      rw [Stack.fits, Bool.and_eq_true] at h
      exact .cons (known_sub.2 h.1) (ih h.2)

theorem of_fits_reverse (h : fits u xs rs.reverse = true) :
    Covers u xs (knowns rs.reverse ++ xs.drop rs.length) := by
  simpa using of_fits h

theorem pop (rs : List ValueType) (h : Covers u xs (knowns rs ++ ss)) :
    fits u xs rs = true ∧ Covers u (xs.drop rs.length) ss := by
  induction rs generalizing xs with
  | nil => exact ⟨by cases xs <;> rfl, h⟩
  | cons r rs ih =>
    cases h with
    | gap hu => exact ⟨hu, by rw [List.drop_nil]; exact .gap hu ss⟩
    | cons ho h =>
      obtain ⟨hf, hd⟩ := ih h
      exact ⟨by rw [Stack.fits, known_sub.1 ho, hf]; rfl, hd⟩

theorem head {p : Operand} (h : Covers u xs (p :: ss)) :
    (xs.headD unknown).Sub p ∧ Covers u (xs.drop 1) ss := by
  cases h with
  | gap hu => exact ⟨.bottom p, .gap hu ss⟩
  | cons ho h => exact ⟨ho, h⟩

theorem of_head (h : ¬(xs = [] ∧ u = false)) : Covers u xs (xs.headD unknown :: xs.drop 1) := by
  cases xs with
  | nil =>
    cases u with
    | false => exact absurd ⟨rfl, rfl⟩ h
    | true => exact .gap rfl _
  | cons x xs => exact refl u _

theorem head_given {p : Operand} (h : Covers u xs (p :: ss)) : ¬(xs = [] ∧ u = false) := by
  rintro ⟨rfl, rfl⟩
  cases h with
  | gap hu => cases hu

theorem weaken {v : Bool} (h : Covers v ys ss) (hu : v = true → u = true) : Covers u ys ss := by
  induction h with
  | nil => exact .nil
  | gap hv => exact .gap (hu hv) _
  | cons ho _ ih => exact .cons ho ih

theorem trans_weaken {v : Bool} (h : Covers u xs ys) (hu : v = true → u = true)
    (h' : Covers v ys ss) : Covers u xs ss := h.trans (h'.weaken hu)

/-- Types that can be taken off the covered operands can be taken off those that cover them. -/
theorem fits_of {v : Bool} (h : Covers u xs ys) (hu : v = true → u = true)
    (hf : fits v ys rs = true) : fits u xs rs = true :=
  ((h.trans_weaken hu (of_fits hf)).pop rs).1

theorem drop (h : Covers u xs ys) (n : Nat) : Covers u (xs.drop n) (ys.drop n) := by
  induction h generalizing n with
  | nil => rw [List.drop_nil]; exact .nil
  | gap hu => rw [List.drop_nil]; exact .gap hu _
  | cons ho h ih =>
    cases n with
    | zero => exact .cons ho h
    | succ n => exact ih n

/-- One list of operands does for all lists of types of one length that can be taken off. -/
theorem exists_supply (h : fits u xs rs = true) : ∃ os, Covers u xs (os ++ xs.drop rs.length) ∧
    ∀ ts, ts.length = rs.length → fits u xs ts = true → SubAll os (knowns ts) := by
  induction rs generalizing xs with
  | nil =>
    refine ⟨[], refl u xs, fun ts hl _ => ?_⟩
    rw [List.eq_nil_of_length_eq_zero hl]
    exact .nil
  | cons r rs ih =>
    have hr : fits u (xs.drop 1) rs = true := ((of_fits h).head.2.pop _).1
    obtain ⟨os, hc, hs⟩ := ih hr
    refine ⟨xs.headD unknown :: os, ?_, ?_⟩
    · have hx : Covers u xs (xs.headD unknown :: xs.drop 1) := by
        refine of_head ?_
        rintro ⟨hx, hu⟩
        rw [hx, hu] at h
        cases h
      rw [List.length_cons, Nat.add_comm, ← List.drop_drop]
      exact hx.trans (.cons (.refl _) hc)
    · intro ts hl ht
      cases ts with
      | nil => cases hl
      | cons t ts =>
        obtain ⟨ho, hd⟩ := (of_fits ht).head
        exact .cons ho (hs ts (Nat.succ.inj hl) (hd.pop _).1)

theorem of_supplyReference (h : Stack.supplyReference u xs = true) :
    ∃ r : RefType, Covers u xs (known r.toValueType :: xs.drop 1) := by
  rcases xs with _ | ⟨t | _, xs⟩
  · exact ⟨.funcref, .gap h _⟩
  · obtain ⟨r, hr⟩ := Option.isSome_iff_exists.1 h
    refine ⟨r, ?_⟩
    rw [← ValueType.asRef_eq_some_iff.1 hr]
    exact refl u _
  · exact ⟨.funcref, .cons (.bottom _) (refl u xs)⟩

theorem supplyReference {r : RefType} (h : Covers u xs (known r.toValueType :: ss)) :
    Stack.supplyReference u xs = true := by
  cases h with
  | gap hu => exact hu
  | cons ho =>
    cases ho with
    | refl => cases r <;> rfl
    | bottom => rfl

theorem of_closes {f : Frame} (h : closes f xs = true) :
    Covers f.unreachable xs (knowns f.results.reverse) := by
  rw [closes, Bool.and_eq_true, decide_eq_true_eq] at h
  have hc := of_fits h.2
  rwa [List.drop_eq_nil_of_le (by simpa using h.1), List.append_nil] at hc

theorem closes {f : Frame} (h : Covers f.unreachable xs (knowns f.results.reverse)) :
    closes f xs = true := by
  have hl : xs.length ≤ f.results.length := by simpa using h.length_le
  rw [← List.append_nil (knowns _)] at h
  rw [Stack.closes, (h.pop _).1, decide_eq_true hl]
  rfl

end Covers

end WasmCheck
