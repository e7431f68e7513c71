set_option autoImplicit false

/-!
# Blank characters and trimming

A character is blank when Unicode gives it the property `White_Space`. Every trimming step of the
library is defined from this one class, so a zero-width space or a byte-order mark is never blank
and a no-break space always is.
-/

namespace GrpcStubs.Text

/-- The first and last code point of each run of characters with the property `White_Space`. -/
def blankRanges : List (Nat × Nat) :=
  [(0x0009, 0x000D), (0x0020, 0x0020), (0x0085, 0x0085), (0x00A0, 0x00A0), (0x1680, 0x1680),
   (0x2000, 0x200A), (0x2028, 0x2029), (0x202F, 0x202F), (0x205F, 0x205F), (0x3000, 0x3000)]

def isBlank (c : Char) : Bool :=
  blankRanges.any fun (first, last) => first ≤ c.toNat && c.toNat ≤ last

def allBlank (cs : List Char) : Bool :=
  cs.all isBlank

def dropEndWhile {α : Type} (p : α → Bool) (xs : List α) : List α :=
  (xs.reverse.dropWhile p).reverse

def trimStart (cs : List Char) : List Char :=
  cs.dropWhile isBlank

def trimEnd (cs : List Char) : List Char :=
  dropEndWhile isBlank cs

def trim (cs : List Char) : List Char :=
  trimEnd (trimStart cs)

def leadingBlanks (cs : List Char) : List Char :=
  cs.takeWhile isBlank

end GrpcStubs.Text
