import WasmCheck.Decimal.Binary

/-!
# Shortest decimals

The decimal number with the fewest digits among those that round to a given float, and its text in
positional notation.
-/

namespace WasmCheck.Decimal

namespace Interval

/-- The multiple of `grid` in the interval that is nearest to the value, as a number of grid steps.
Of two equally near ones it is the greater. -/
def nearestOn (r : Interval) (grid : Nat) : Option Nat :=
  let down := r.value / grid
  let up := down + 1
  match r.holds (down * grid), r.holds (up * grid) with
  | true, true => some (if r.value - down * grid < up * grid - r.value then down else up)
  | true, false => some down
  | false, true => some up
  | false, false => none

theorem holds_of_nearestOn {r : Interval} {grid d : Nat} (h : r.nearestOn grid = some d) :
    r.holds (d * grid) = true := by
  cases hd : r.holds (r.value / grid * grid) <;>
    cases hu : r.holds ((r.value / grid + 1) * grid) <;>
    simp only [nearestOn, hd, hu, reduceCtorEq, Option.some.injEq] at h <;> subst h
  · exact hu
  · exact hd
  · split <;> assumption

/-- If any multiple of `grid` lies in the interval, one next to the value does. -/
theorem nearestOn_eq_none_iff {r : Interval} {grid : Nat} (hg : 0 < grid)
    (hv : r.holds r.value = true) :
    r.nearestOn grid = none ↔ ∀ d, r.holds (d * grid) = false := by
  have lower := Nat.div_mul_le_self r.value grid
  have upper : r.value ≤ (r.value / grid + 1) * grid := by
    have := Nat.lt_div_mul_add (a := r.value) hg
    rw [Nat.succ_mul]; omega
  constructor
  · intro h d
    have ends : r.holds (r.value / grid * grid) = false ∧
        r.holds ((r.value / grid + 1) * grid) = false := by
      cases hd : r.holds (r.value / grid * grid) <;>
        cases hu : r.holds ((r.value / grid + 1) * grid) <;> simp [nearestOn, hd, hu] at h ⊢
    cases hd : r.holds (d * grid) with
    | false => rfl
    | true =>
      rcases Nat.le_total d (r.value / grid) with hle | hge
      · have := holds_of_between hd hv (Nat.mul_le_mul_right grid hle) lower
        simp [this] at ends
      · rcases Nat.eq_or_lt_of_le hge with rfl | hlt
        · simp [hd] at ends
        · have := holds_of_between hv hd upper (Nat.mul_le_mul_right grid hlt)
          simp [this] at ends
  · intro h
    unfold nearestOn
    simp [h]

/-- The first grid with a point in the interval, from `10 ^ k` down to single units, with its point
nearest to the value: a number of steps and the exponent of the grid. -/
def shortestFrom (r : Interval) : Nat → Nat × Nat
  | 0 => (r.value, 0)
  | k + 1 =>
    match r.nearestOn (Nat.pow 10 (k + 1)) with
    | some d => (d, k + 1)
    | none => r.shortestFrom k

theorem holds_shortestFrom {r : Interval} (hv : r.holds r.value = true) (k : Nat) :
    r.holds ((r.shortestFrom k).1 * Nat.pow 10 (r.shortestFrom k).2) = true := by
  induction k with
  | zero => simpa [shortestFrom] using hv
  | succ k ih =>
    unfold shortestFrom
    split
    · next h => exact holds_of_nearestOn h
    · exact ih

def shortest (r : Interval) : Nat × Int :=
  let (digits, dropped) := r.shortestFrom ((Nat.toDigits 10 r.value).length - 1)
  (digits, dropped + r.exp)

end Interval

def stripZeros (digits : List Char) (exp : Int) : List Char × Int :=
  let kept := (digits.reverse.dropWhile (· == '0')).reverse
  (kept, exp + (digits.length - kept.length : Nat))

/-- The digits times a power of ten, written out without an exponent. -/
def positional (digits : List Char) (exp : Int) : List Char :=
  let places := (-exp).toNat
  if 0 ≤ exp then digits ++ List.replicate exp.toNat '0'
  else if places < digits.length then
    digits.take (digits.length - places) ++ '.' :: digits.drop (digits.length - places)
  else '0' :: '.' :: (List.replicate (places - digits.length) '0' ++ digits)

def Interval.digits (r : Interval) : List Char :=
  let (d, e) := r.shortest
  let (ds, e) := stripZeros (Nat.toDigits 10 d) e
  positional ds e

/-- The text of a float: the fewest digits that round to it, no exponent, no point unless a digit
follows it, a sign on negative numbers and on negative zero. -/
def Format.text (f : Format) (bits : Nat) : String :=
  if f.isNaN bits then "NaN"
  else
    let sign := if f.negative bits then "-" else ""
    if f.isInfinite bits then sign ++ "inf"
    else if f.isZero bits then sign ++ "0"
    else sign ++ String.ofList (f.interval bits).digits

end WasmCheck.Decimal
