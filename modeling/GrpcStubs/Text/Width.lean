set_option autoImplicit false

/-!
# Widths in bytes

Indentation is measured in bytes of the UTF-8 encoding, so a blank outside ASCII is two or three
columns wide. Cutting a line at such a width can fail: the cut may lie beyond its end or inside a
character.
-/

namespace GrpcStubs.Text

def utf8Width : List Char → Nat
  | [] => 0
  | c :: cs => c.utf8Size + utf8Width cs

/-- The text from byte `width` on, if a character starts there or the text ends there. -/
def dropWidth : Nat → List Char → Option (List Char)
  | 0, cs => some cs
  | _ + 1, [] => none
  | width + 1, c :: cs =>
    if c.utf8Size ≤ width + 1 then dropWidth (width + 1 - c.utf8Size) cs else none

end GrpcStubs.Text
