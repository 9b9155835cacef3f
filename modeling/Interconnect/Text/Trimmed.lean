/-
Text without the white space around it.
-/
import Interconnect.Text.Unprinted

namespace Interconnect

/-- Whether a character is white space: a space of any width, a tab, or the end of a line or page. -/
def isSpace (c : Char) : Bool :=
  Unprinted.within
    [(0x9, 0xd), (0x20, 0x20), (0x85, 0x85), (0xa0, 0xa0), (0x1680, 0x1680), (0x2000, 0x200a),
      (0x2028, 0x2029), (0x202f, 0x202f), (0x205f, 0x205f), (0x3000, 0x3000)] c.toNat

/-- A text without the white space at its ends. -/
def trimmed (s : String) : String :=
  String.ofList ((s.toList.dropWhile isSpace).reverse.dropWhile isSpace).reverse

end Interconnect
