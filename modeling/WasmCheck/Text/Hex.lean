/-!
# Hexadecimal numbers

A number in base sixteen, padded with zeros to a least width. Wider numbers keep all their
digits.
-/

namespace WasmCheck.Text

/-- The digits of `n` in base sixteen, in lower case and at least `width` of them. -/
def hexDigits (width n : Nat) : List Char := (Nat.toDigits 16 n).leftpad width '0'

theorem length_hexDigits (width n : Nat) :
    (hexDigits width n).length = max width (Nat.toDigits 16 n).length := by
  simp [hexDigits, List.leftpad]; omega

def hex (width n : Nat) : String := String.ofList (hexDigits width n)

def hexUpper (width n : Nat) : String := String.ofList ((hexDigits width n).map Char.toUpper)

end WasmCheck.Text
