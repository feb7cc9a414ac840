-- Blank characters, those with the Unicode White_Space property: trimming and splitting at them.

namespace Courier.Text

/-- A character with the White_Space property: tab to carriage return, space, next line,
no-break space, ogham space, the typographic spaces, the line and paragraph separators, and the
ideographic space. -/
def isBlank (c : Char) : Bool :=
  let n := c.toNat
  (9 ≤ n && n ≤ 13) || n == 0x20 || n == 0x85 || n == 0xA0 || n == 0x1680 ||
  (0x2000 ≤ n && n ≤ 0x200A) || n == 0x2028 || n == 0x2029 || n == 0x202F ||
  n == 0x205F || n == 0x3000

/-- The characters with leading blanks removed. -/
def dropBlank (cs : List Char) : List Char := cs.dropWhile isBlank

/-- A text without its leading and trailing blanks. -/
def trimBlank (s : String) : String :=
  String.ofList (dropBlank (dropBlank s.toList).reverse).reverse

end Courier.Text
