set_option autoImplicit false

namespace GrpcStubs.Text

def decimalValue (digits : List Char) : Nat :=
  digits.foldl (fun value d => 10 * value + (d.toNat - '0'.toNat)) 0

def parseDigits (digits : List Char) : Option Nat :=
  if digits.isEmpty || !digits.all Char.isDigit || UInt64.size ≤ decimalValue digits then none
  else some (decimalValue digits)

def parseCount : List Char → Option Nat
  | '+' :: digits => parseDigits digits
  | digits => parseDigits digits

end GrpcStubs.Text
