import WasmCheck.Error

/-!
# Reading types

The two places where a type is read from something larger: a byte of the binary format, and a
value type that has to be a reference type.
-/

namespace WasmCheck

def ValueType.ofByte (b : UInt8) : Except Error ValueType :=
  match ofByte? b with
  | some t => .ok t
  | none => .error (.invalidTypeByte b)

def RefType.ofValueType (t : ValueType) : Except Error RefType :=
  match t.asRef with
  | some r => .ok r
  | none => .error (.notReference t)

end WasmCheck
