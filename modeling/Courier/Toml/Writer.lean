-- Writing TOML text: strings literal where they can be, escaped otherwise, and a document as its plain
-- entries then each table under its header.
import Courier.Toml.Value

namespace Courier.Toml

/-- Where the marks of a string stand. -/
inductive Layout where
  /-- One mark on each side. -/
  | oneLine
  /-- Three marks on each side, on one line. -/
  | oneLineTriple
  /-- Three marks on each side, a line break after the opening ones. -/
  | manyLines
deriving DecidableEq, Repr

/-- What a look through a string has found so far. -/
structure StyleScan where
  layout : Layout := .oneLine
  /-- The longest run of apostrophes before the current one. -/
  longestRun : Nat := 0
  /-- The current run of apostrophes. -/
  run : Nat := 0
  hasBackslash : Bool := false
  /-- Whether the string can still be written literally. -/
  literal : Bool := true

/-- Looks at one more character. -/
def StyleScan.step (st : StyleScan) (c : Char) : StyleScan :=
  if st.literal then
    let st := if c.toNat == 39 then { st with run := st.run + 1, literal := st.run + 1 < 3 }
      else { st with longestRun := max st.longestRun st.run, run := 0 }
    if c == '\t' then st
    else if c == '\\' then { st with hasBackslash := true }
    else if c == '\n' then { st with layout := .manyLines }
    else if c.toNat ≤ 0x1F then { st with literal := false }
    else st
  else if c == '\n' then { st with layout := .manyLines } else st

/-- The layout of a string, and whether it is written literally. -/
def stringStyle (s : String) : Layout × Bool :=
  let st := s.toList.foldl StyleScan.step {}
  let endsInApostrophe := s.toList.getLast? == some (Char.ofNat 39)
  if !st.literal || (st.run > 0 && endsInApostrophe) || !st.hasBackslash then (st.layout, false)
  else if st.layout == .oneLine && max st.longestRun st.run ≥ 1 then (.oneLineTriple, true)
  else (st.layout, true)

/-- Four upper-case hex digits of a code point below 65536. -/
def hex4 (n : Nat) : String :=
  let d (k : Nat) : Char := "0123456789ABCDEF".toList.getD k '0'
  String.ofList [d (n / 4096 % 16), d (n / 256 % 16), d (n / 16 % 16), d (n % 16)]

/-- A character inside double quotes. -/
def escapeChar (layout : Layout) (c : Char) : String :=
  match c with
  | '\x08' => "\\b"
  | '\t' => "\\t"
  | '\n' => if layout == .manyLines then "\n" else "\\n"
  | '\x0c' => "\\f"
  | '\r' => "\\r"
  | '"' => "\\\""
  | '\\' => "\\\\"
  | c => if c.toNat ≤ 0x1F || c.toNat == 0x7F then "\\u" ++ hex4 c.toNat else String.singleton c

/-- A string as TOML writes it. -/
def writeString (s : String) : String :=
  let (layout, literal) := stringStyle s
  let marks (m : String) : String × String := match layout with
    | .oneLine => (m, m)
    | .oneLineTriple => (m ++ m ++ m, m ++ m ++ m)
    | .manyLines => (m ++ m ++ m ++ "\n", m ++ m ++ m)
  if literal then
    let (o, c) := marks (apostrophes 1)
    o ++ s ++ c
  else
    let (o, c) := marks "\""
    o ++ String.join (s.toList.map (escapeChar layout)) ++ c

/-- A value on the right of `=`: a string or a whole number. -/
inductive Scalar where
  | text (s : String)
  | whole (n : Int)

/-- A scalar as TOML writes it. -/
def Scalar.write : Scalar → String
  | .text s => writeString s
  | .whole n => toString n

/-- The lines of plain entries. -/
def writeEntries (es : List (String × Scalar)) : String :=
  String.join (es.map fun (k, v) => k ++ " = " ++ v.write ++ "\n")

/-- A document: the root's plain entries, then each table under its header. A blank line stands
before a header unless nothing was written before it. -/
def writeDocument (root : List (String × Scalar)) (tables : List (String × List (String × Scalar))) :
    String :=
  let (out, _) := tables.foldl (fun (out, first) (name, es) =>
    (out ++ (if first then "" else "\n") ++ "[" ++ name ++ "]\n" ++ writeEntries es, false))
    (writeEntries root, root.isEmpty)
  out

end Courier.Toml
