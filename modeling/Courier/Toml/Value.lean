-- TOML documents as values, each value and key with the span of text it was read from, and the
-- faults of the reader with the message that points at them.

namespace Courier.Toml

/-- The bytes `start` up to, but not including, `stop` of a text. -/
structure Span where
  start : Nat
  stop : Nat
deriving Inhabited, DecidableEq, Repr

/-- A key as written: its name and where it stands. -/
structure Key where
  name : String
  span : Span
deriving Inhabited

/-- The kinds of date and time values, by the parts they hold. -/
inductive DateKind where
  | offsetDateTime
  | localDateTime
  | localDate
  | localTime
deriving DecidableEq, Repr

/-- How a table came to be. -/
inductive TableForm where
  /-- By a header of its own. -/
  | header
  /-- On the way to the table of a header. -/
  | implicit
  /-- By dotted keys. -/
  | dotted
deriving DecidableEq, Repr

/-- Whether a table was only made on the way to another. -/
def TableForm.isImplicit : TableForm → Bool
  | .header => false
  | _ => true

/-- A value of a document. -/
inductive Value where
  | str (s : String) (span : Span)
  | int (n : Int) (span : Span)
  | float (x : Float) (span : Span)
  | bool (b : Bool) (span : Span)
  | date (kind : DateKind) (span : Span)
  | array (items : List Value) (span : Span)
  /-- An inline table; `dotted` marks one made by a dotted key inside another, which has no
  span. -/
  | inline (entries : List (Key × Value)) (dotted : Bool) (span : Option Span)
  | table (entries : List (Key × Value)) (form : TableForm) (span : Option Span)
  /-- An array of tables, each a `table`. -/
  | tables (items : List Value) (span : Option Span)
deriving Inhabited

/-- The entries of a table, in the order they were made. -/
abbrev Entries := List (Key × Value)

namespace Value

/-- The span of a value; tables not written out have none. -/
def span? : Value → Option Span
  | .str _ s | .int _ s | .float _ s | .bool _ s | .date _ s | .array _ s => some s
  | .inline _ _ s | .table _ _ s | .tables _ s => s

/-- The name of the kind of a value. -/
def typeName : Value → String
  | .str .. => "string"
  | .int .. => "integer"
  | .float .. => "float"
  | .bool .. => "boolean"
  | .date .. => "datetime"
  | .array .. => "array"
  | .inline .. => "inline table"
  | .table .. => "table"
  | .tables .. => "array of tables"

end Value

/-- What the reader reports when the text is not a document. -/
structure Fault where
  /-- The byte where reading stopped. -/
  pos : Nat
  /-- Labels of the parts being read, innermost first. -/
  labels : List String := []
  /-- What would have been read there. -/
  expected : List String := []
  cause : Option String := none
  /-- Whether the fault ends reading, or another reading may still be tried. -/
  final : Bool := false

namespace Fault

/-- The fault seen from an enclosing part with a label. -/
def label (f : Fault) (l : String) : Fault := { f with labels := f.labels ++ [l] }

/-- The fault with more that would have been read. -/
def expect (f : Fault) (es : List String) : Fault := { f with expected := f.expected ++ es }

/-- The fault, ending reading. -/
def cut (f : Fault) : Fault := { f with final := true }

/-- The message: the innermost label, what was expected, and the cause, one per line. -/
def message (f : Fault) : String :=
  let parts := (f.labels.head?.map ("invalid " ++ ·)).toList ++
    (if f.expected.isEmpty then [] else ["expected " ++ ", ".intercalate f.expected]) ++
    f.cause.toList
  "\n".intercalate parts

end Fault

/-- `n` apostrophes. -/
def apostrophes (n : Nat) : String := String.ofList (List.replicate n (Char.ofNat 39))

/-- How something expected is named in a message: a character in back quotes, the line feed as a
word. -/
def mark (s : String) : String := if s == "\n" then "newline" else "`" ++ s ++ "`"

/-- Line and column (both from zero) of a byte of a text. The column counts characters, unless the
byte starts a character of several bytes, when it counts bytes; a place past the end counts on. -/
def place (bytes : ByteArray) (index : Nat) : Nat × Nat :=
  if bytes.size = 0 then (0, index)
  else
    let safe := min index (bytes.size - 1)
    let before := (bytes.extract 0 safe).toList
    let lineStart := before.length - (before.reverse.takeWhile (· != 10)).length
    let line := (before.take lineStart).count 10
    let column := match String.fromUTF8? (bytes.extract lineStart (safe + 1)) with
      | some s => s.length - 1
      | none => safe - lineStart
    (line, column + (index - safe))

/-- A message laid out under the line it points at, with carets under the span (at least one, and
not past the end of the line). Without a span the message stands alone. -/
def report (text : String) (span : Option Span) (message : String) : String :=
  match span with
  | none => message ++ "\n"
  | some sp =>
    let (line, column) := place text.toUTF8 sp.start
    let num := toString (line + 1)
    let content := (text.splitOn "\n").getD line ""
    let width := min (sp.stop - sp.start) (content.utf8ByteSize - column)
    let blank (n : Nat) := String.ofList (List.replicate n ' ')
    s!"TOML parse error at line {line + 1}, column {column + 1}\n" ++
      blank (num.length + 1) ++ "|\n" ++
      num ++ " | " ++ content ++ "\n" ++
      blank (num.length + 1) ++ "|" ++ blank (column + 1) ++ "^" ++
      String.ofList (List.replicate (width - 1) '^') ++ "\n" ++
      message ++ "\n"

end Courier.Toml
