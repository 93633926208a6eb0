/-!
# Binary floating point

The bits of a float in an IEEE interchange format, taken apart in natural numbers: sign, biased
exponent and fraction, and for a finite value the interval of reals that round to it.
-/

namespace WasmCheck.Decimal

/-- An interchange format, by the widths of its fields. -/
structure Format where
  fractionBits : Nat
  exponentBits : Nat

def binary32 : Format := ⟨23, 8⟩

def binary64 : Format := ⟨52, 11⟩

/-- A positive real, and the end points of the reals that round to it, in units of `10 ^ exp`.
Every binary fraction is a finite decimal fraction, so the three are natural numbers. -/
structure Interval where
  lo : Nat
  value : Nat
  hi : Nat
  /-- The end points round to the value too. -/
  closed : Bool
  exp : Int

namespace Interval

def holds (r : Interval) (x : Nat) : Bool :=
  if r.closed then r.lo ≤ x && x ≤ r.hi else r.lo < x && x < r.hi

theorem holds_of_between {r : Interval} {x y z : Nat} (hx : r.holds x = true)
    (hz : r.holds z = true) (hxy : x ≤ y) (hyz : y ≤ z) : r.holds y = true := by
  unfold holds at *
  cases h : r.closed <;> simp_all <;> omega

end Interval

namespace Format

variable (f : Format) (bits : Nat)

def fraction : Nat := bits % (1 <<< f.fractionBits)

def exponent : Nat := (bits >>> f.fractionBits) % (1 <<< f.exponentBits)

def negative : Bool := bits.testBit (f.fractionBits + f.exponentBits)

def isNaN : Bool := f.exponent bits == (1 <<< f.exponentBits) - 1 && f.fraction bits != 0

def isInfinite : Bool := f.exponent bits == (1 <<< f.exponentBits) - 1 && f.fraction bits == 0

def isZero : Bool := f.exponent bits == 0 && f.fraction bits == 0

/-- Two floats are the same number. All NaNs count as one, and so do the two zeros. -/
def same (a b : Nat) : Bool :=
  f.isNaN a && f.isNaN b || f.isZero a && f.isZero b || a == b

def parts : Nat × Int :=
  let e := f.exponent bits
  let bias : Int := ((1 <<< (f.exponentBits - 1)) - 1 + f.fractionBits : Nat)
  if e = 0 then (f.fraction bits, 1 - bias)
  else ((1 <<< f.fractionBits) + f.fraction bits, e - bias)

/-- The reals that round to a finite value: up to halfway to its neighbours, where the one below
a power of two is half as far away. Halfway itself belongs to the even significand. -/
def interval : Interval :=
  let (m, q) := f.parts bits
  let below := if f.fraction bits = 0 && 1 < f.exponent bits then 1 else 2
  let scale := Nat.pow 5 (2 - q).toNat <<< (q - 2).toNat
  { lo := (4 * m - below) * scale
    value := 4 * m * scale
    hi := (4 * m + 2) * scale
    closed := m % 2 == 0
    exp := min 0 (q - 2) }

end Format

end WasmCheck.Decimal
