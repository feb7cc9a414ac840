-- Reading TOML text into a table of values, walking its UTF-8 bytes; a fault that is not final lets
-- an enclosing part try another reading.
import Courier.Toml.Value

namespace Courier.Toml

/-- The place after the bytes from `pos` on that pass a test. -/
def scan (b : ByteArray) (p : UInt8 → Bool) (pos : Nat) : Nat := go pos (b.size - pos)
where
  go (i : Nat) : Nat → Nat
    | 0 => i
    | n + 1 => match b[i]? with
      | some x => if p x then go (i + 1) n else i
      | none => i

/-- Like `scan`, stopping after at most `most` bytes. -/
def scanAtMost (b : ByteArray) (p : UInt8 → Bool) (pos most : Nat) : Nat :=
  min (scan b p pos) (pos + most)

/-- The text of the bytes from `i` up to `j`. -/
def slice (b : ByteArray) (i j : Nat) : String := (String.fromUTF8? (b.extract i j)).getD ""

/-- Whether the bytes at `pos` spell a word. -/
def looking (b : ByteArray) (pos : Nat) (word : String) : Bool :=
  (b.extract pos (pos + word.utf8ByteSize)).toList == word.toUTF8.toList

section Classes

/-- Space or tab. -/
def isBlank (c : UInt8) : Bool := c == 32 || c == 9

/-- A decimal digit. -/
def isDigit (c : UInt8) : Bool := 48 ≤ c && c ≤ 57

/-- A hex digit in either case. -/
def isHex (c : UInt8) : Bool := isDigit c || (65 ≤ c && c ≤ 70) || (97 ≤ c && c ≤ 102)

/-- A byte of a character beyond ASCII. -/
def isWide (c : UInt8) : Bool := 128 ≤ c

/-- A byte that may stand in a comment. -/
def isCommentByte (c : UInt8) : Bool := c == 9 || (32 ≤ c && c ≤ 126) || isWide c

/-- A byte of a bare key. -/
def isBareKey (c : UInt8) : Bool :=
  (65 ≤ c && c ≤ 90) || (97 ≤ c && c ≤ 122) || isDigit c || c == 45 || c == 95

/-- A byte that stands for itself in a basic string. -/
def isBasicPlain (c : UInt8) : Bool :=
  isBlank c || c == 33 || (35 ≤ c && c ≤ 91) || (93 ≤ c && c ≤ 126) || isWide c

/-- A byte that may stand in a literal string. -/
def isLiteralByte (c : UInt8) : Bool :=
  c == 9 || (32 ≤ c && c ≤ 38) || (40 ≤ c && c ≤ 126) || isWide c

end Classes

/-- The value of a run of digits in a base, `_` skipped. -/
def digitsValue (base : Nat) (text : String) : Nat :=
  text.toList.foldl (fun acc c =>
    if c == '_' then acc
    else
      let d := if c.isDigit then c.toNat - 48
        else if 'a' ≤ c && c ≤ 'f' then c.toNat - 87 else c.toNat - 55
      acc * base + d) 0

/-- The largest whole number a document holds. -/
def intMax : Nat := Nat.pow 2 63 - 1

/-- Quote marks as a message names them. -/
def quoteMarks : List String := [mark "\"", mark (apostrophes 1)]

/-! ### Blanks, comments and line ends -/

/-- Skips spaces and tabs. -/
def blanks (b : ByteArray) (pos : Nat) : Nat := scan b isBlank pos

/-- A line feed, alone or after a carriage return. -/
def newline (b : ByteArray) (pos : Nat) : Option Nat :=
  if b[pos]? == some 10 then some (pos + 1)
  else if b[pos]? == some 13 && b[pos + 1]? == some 10 then some (pos + 2)
  else none

/-- A comment, up to the end of its line. -/
def comment (b : ByteArray) (pos : Nat) : Option Nat :=
  if b[pos]? == some 35 then some (scan b isCommentByte (pos + 1)) else none

/-- The end of a line: a newline or the end of the text. -/
def lineEnd (b : ByteArray) (pos : Nat) : Option Nat :=
  match newline b pos with
  | some q => some q
  | none => if pos == b.size then some pos else none

/-- Blanks and a comment, then the end of the line. -/
def lineTail (b : ByteArray) (pos : Nat) : Except Fault Nat :=
  let p := blanks b pos
  let p := (comment b p).getD p
  match lineEnd b p with
  | some q => .ok q
  | none => .error { pos := p }

/-- Skips blanks, newlines, and comments that end in a newline, as between the items of a list. -/
def gaps (b : ByteArray) (pos : Nat) : Nat := go pos (b.size - pos + 1)
where
  go (p : Nat) : Nat → Nat
    | 0 => p
    | n + 1 =>
      let q := blanks b p
      match newline b q with
      | some r => go r n
      | none =>
        match comment b q with
        | some c => match newline b c with
          | some r => go r n
          | none => q
        | none => q

/-- Skips blanks and newlines. -/
def blanksAndLines (b : ByteArray) (pos : Nat) : Nat := go pos (b.size - pos + 1)
where
  go (p : Nat) : Nat → Nat
    | 0 => p
    | n + 1 =>
      let q := blanks b p
      match newline b q with
      | some r => go r n
      | none => q

/-! ### Strings -/

/-- The character of a hex escape of `n` digits at `pos`. -/
def hexEscape (b : ByteArray) (pos n : Nat) (label : String) : Except Fault (String × Nat) :=
  let q := scanAtMost b isHex pos n
  if q - pos != n then .error { pos, labels := [label], final := true }
  else
    let v := digitsValue 16 (slice b pos q)
    if v < 0xD800 || (0xE000 ≤ v && v ≤ 0x10FFFF) then .ok (String.singleton (Char.ofNat v), q)
    else .error { pos, labels := [label], cause := some "value is out of range", final := true }

/-- An escape at a backslash; `none` when the text ends after the backslash. -/
def escape (b : ByteArray) (pos : Nat) : Except Fault (Option (String × Nat)) :=
  match b[pos + 1]? with
  | none => .ok none
  | some c =>
    let q := pos + 2
    let plain (s : String) : Except Fault (Option (String × Nat)) := .ok (some (s, q))
    match c with
    | 98 => plain "\x08"
    | 102 => plain "\x0c"
    | 110 => plain "\n"
    | 114 => plain "\r"
    | 116 => plain "\t"
    | 92 => plain "\\"
    | 34 => plain "\""
    | 117 => (hexEscape b q 4 "unicode 4-digit hex code").map some
    | 85 => (hexEscape b q 8 "unicode 8-digit hex code").map some
    | _ =>
      let expected := ["b", "f", "n", "r", "t", "u", "U", "\\", "\""].map mark
      .error { pos := q, labels := ["escape sequence"], expected, final := true }

/-- The characters of a basic string up to where no plain character or escape follows. -/
def basicBody (b : ByteArray) (pos : Nat) (acc : String) : Nat → Except Fault (String × Nat)
  | 0 => .ok (acc, pos)
  | n + 1 =>
    match b[pos]? with
    | none => .ok (acc, pos)
    | some c =>
      if isBasicPlain c then
        let q := scan b isBasicPlain pos
        basicBody b q (acc ++ slice b pos q) n
      else if c == 92 then
        match escape b pos with
        | .error f => .error f
        | .ok none => .ok (acc, pos)
        | .ok (some (s, q)) => basicBody b q (acc ++ s) n
      else .ok (acc, pos)

/-- A basic string at its opening quote. -/
def basicString (b : ByteArray) (pos : Nat) : Except Fault (String × Nat) := do
  let (s, q) ← basicBody b (pos + 1) "" (b.size + 1)
  if b[q]? == some 34 then pure (s, q + 1)
  else throw { pos := q, labels := ["basic string"], final := true }

/-- A literal string at its opening apostrophe. -/
def literalString (b : ByteArray) (pos : Nat) : Except Fault (String × Nat) :=
  let q := scan b isLiteralByte (pos + 1)
  if b[q]? == some 39 then .ok (slice b (pos + 1) q, q + 1)
  else .error { pos := q, labels := ["literal string"], final := true }

/-- One or two quote marks `quote` at `pos` followed by what `after` accepts; the longer wins. -/
def closingQuotes (b : ByteArray) (quote : UInt8) (pos : Nat) (after : Nat → Bool) :
    Option (Nat × Nat) :=
  if b[pos]? == some quote && b[pos + 1]? == some quote && after (pos + 2) then some (2, pos + 2)
  else if b[pos]? == some quote && after (pos + 1) then some (1, pos + 1)
  else none

/-- A backslash at the end of a line, which drops the line end and the blanks after it. -/
def lineContinuation (b : ByteArray) (pos : Nat) : Option Nat := go pos none (b.size - pos + 1)
where
  go (p : Nat) (last : Option Nat) : Nat → Option Nat
    | 0 => last
    | n + 1 =>
      if b[p]? == some 92 then
        match newline b (blanks b (p + 1)) with
        | some q => go (blanksAndLines b q) (some (blanksAndLines b q)) n
        | none => last
      else last

/-- One piece of a multi-line basic string: plain characters, a line continuation, an escape or
a newline; `none` when none of these follows. -/
def manyLinePiece (b : ByteArray) (pos : Nat) : Except Fault (Option (String × Nat)) :=
  match b[pos]? with
  | none => .ok none
  | some c =>
    if isBasicPlain c then let q := scan b isBasicPlain pos; .ok (some (slice b pos q, q))
    else if c == 92 then
      match lineContinuation b pos with
      | some q => .ok (some ("", q))
      | none => escape b pos
    else match newline b pos with
      | some q => .ok (some ("\n", q))
      | none => .ok none

/-- Pieces of a multi-line basic string, as many as follow. -/
def manyLinePieces (b : ByteArray) (pos : Nat) (acc : String) : Nat → Except Fault (String × Nat)
  | 0 => .ok (acc, pos)
  | n + 1 =>
    match manyLinePiece b pos with
    | .error f => .error f
    | .ok none => .ok (acc, pos)
    | .ok (some (s, q)) => manyLinePieces b q (acc ++ s) n

/-- The body of a multi-line string: pieces, with runs of one or two quote marks between them,
and one or two quote marks just before the closing three. Quote marks that no piece follows end
the body after them when `eager`, and before them otherwise. -/
def manyLineBody (b : ByteArray) (quote : UInt8) (eager : Bool)
    (pieces : Nat → String → Except Fault (String × Nat))
    (piece : Nat → Except Fault (Option (String × Nat))) (pos : Nat) (acc : String) :
    Nat → Except Fault (String × Nat)
  | 0 => .ok (acc, pos)
  | n + 1 =>
    let notQuote (i : Nat) : Bool := match b[i]? with | some c => c != quote | none => false
    match closingQuotes b quote pos notQuote with
    | some (k, p1) =>
      match piece p1 with
      | .error f => .error f
      | .ok none => .ok (acc, if eager then p1 else pos)
      | .ok (some (s, p2)) =>
        match pieces p2 (acc ++ String.ofList (List.replicate k (Char.ofNat quote.toNat)) ++ s) with
        | .error f => .error f
        | .ok (acc, p3) => manyLineBody b quote eager pieces piece p3 acc n
    | none => .ok (acc, pos)

/-- A multi-line string at its three opening quote marks: a newline right after them is dropped,
and three quote marks close it. -/
def manyLineString (b : ByteArray) (quote : UInt8) (label : String)
    (pieces : Nat → String → Except Fault (String × Nat))
    (piece : Nat → Except Fault (Option (String × Nat))) (pos : Nat) :
    Except Fault (String × Nat) :=
  let p := pos + 3
  let p := (newline b p).getD p
  let closes (i : Nat) : Bool := b[i]? == some quote && b[i + 1]? == some quote && b[i + 2]? == some quote
  let body : Except Fault (String × Nat) := do
    let (acc, q) ← pieces p ""
    let (acc, q) ← manyLineBody b quote (quote == 34) pieces piece q acc (b.size + 1)
    match closingQuotes b quote q closes with
    | some (k, q2) => pure (acc ++ String.ofList (List.replicate k (Char.ofNat quote.toNat)), q2)
    | none => pure (acc, q)
  match body with
  | .error f => .error (f.label label)
  | .ok (acc, q) =>
    if closes q then .ok (acc, q + 3) else .error { pos := q, labels := [label], final := true }

/-- One piece of a multi-line literal string: characters that may stand in it, or a newline. -/
def literalLinePiece (b : ByteArray) (pos : Nat) : Except Fault (Option (String × Nat)) :=
  match b[pos]? with
  | none => .ok none
  | some c =>
    if isLiteralByte c then let q := scan b isLiteralByte pos; .ok (some (slice b pos q, q))
    else match newline b pos with
      | some q => .ok (some ("\n", q))
      | none => .ok none

/-- Pieces of a multi-line literal string, as many as follow. -/
def literalLinePieces (b : ByteArray) (pos : Nat) (acc : String) : Nat → Except Fault (String × Nat)
  | 0 => .ok (acc, pos)
  | n + 1 =>
    match literalLinePiece b pos with
    | .error f => .error f
    | .ok none => .ok (acc, pos)
    | .ok (some (s, q)) => literalLinePieces b q (acc ++ s) n

/-- A string of any of the four kinds, at its first quote mark. -/
def string (b : ByteArray) (pos : Nat) : Except Fault (String × Nat) :=
  let fuel := b.size + 1
  if looking b pos "\"\"\"" then
    manyLineString b 34 "multiline basic string" (fun p acc => manyLinePieces b p acc fuel)
      (manyLinePiece b) pos
  else if b[pos]? == some 34 then basicString b pos
  else if looking b pos (apostrophes 3) then
    manyLineString b 39 "multiline literal string" (fun p acc => literalLinePieces b p acc fuel)
      (literalLinePiece b) pos
  else literalString b pos

/-! ### Keys -/

/-- A bare or quoted key. -/
def simpleKey (b : ByteArray) (pos : Nat) : Except Fault (Key × Nat) :=
  match b[pos]? with
  | some 34 => (basicString b pos).map fun (s, q) => (⟨s, ⟨pos, q⟩⟩, q)
  | some 39 => (literalString b pos).map fun (s, q) => (⟨s, ⟨pos, q⟩⟩, q)
  | _ =>
    let q := scan b isBareKey pos
    if q == pos then .error { pos } else .ok (⟨slice b pos q, ⟨pos, q⟩⟩, q)

/-- The keys after the first of a dotted key, each after a dot. -/
def moreKeys (b : ByteArray) (pos : Nat) (acc : List Key) : Nat → Except Fault (List Key × Nat)
  | 0 => .ok (acc, pos)
  | n + 1 =>
    if b[pos]? == some 46 then
      match simpleKey b (blanks b (pos + 1)) with
      | .ok (k, q) => moreKeys b (blanks b q) (acc ++ [k]) n
      | .error f => if f.final then .error f else .ok (acc, pos)
    else .ok (acc, pos)

/-- The most parts of a dotted key, and the deepest nesting of lists and inline tables. -/
def depthLimit : Nat := 80

/-- A key of one or more parts joined by dots, blanks allowed around each part. -/
def key (b : ByteArray) (pos : Nat) : Except Fault (List Key × Nat) :=
  let keys : Except Fault (List Key × Nat) := do
    let (k, q) ← simpleKey b (blanks b pos)
    moreKeys b (blanks b q) [k] (b.size + 1)
  match keys with
  | .error f => .error (f.label "key")
  | .ok (ks, q) =>
    if ks.length < depthLimit then .ok (ks, q)
    else .error { pos, cause := some "recursion limit exceeded" }

/-! ### Numbers, dates and times -/

/-- Digits, each `_` standing between two digits, after a first digit. -/
def digitRun (b : ByteArray) (isD : UInt8 → Bool) (pos : Nat) : Nat → Except Fault Nat
  | 0 => .ok pos
  | n + 1 =>
    match b[pos]? with
    | some c =>
      if isD c then digitRun b isD (pos + 1) n
      else if c == 95 then
        match b[pos + 1]? with
        | some d => if isD d then digitRun b isD (pos + 2) n
          else .error { pos := pos + 1, expected := ["digit"], final := true }
        | none => .error { pos := pos + 1, expected := ["digit"], final := true }
      else .ok pos
    | none => .ok pos

/-- A decimal whole number: a sign, then `0` or digits not starting with `0`. -/
def decimalInt (b : ByteArray) (pos : Nat) : Except Fault Nat :=
  let p := if b[pos]? == some 43 || b[pos]? == some 45 then pos + 1 else pos
  match b[p]? with
  | some c =>
    if 49 ≤ c && c ≤ 57 then (digitRun b isDigit (p + 1) b.size).mapError (·.label "integer")
    else if c == 48 then .ok (p + 1)
    else .error { pos := p, labels := ["integer"] }
  | none => .error { pos := p, labels := ["integer"] }

/-- A digit, then digits with `_` between them. -/
def digitsFrom (b : ByteArray) (pos : Nat) : Except Fault Nat :=
  match b[pos]? with
  | some c => if isDigit c then digitRun b isDigit (pos + 1) b.size else .error { pos }
  | none => .error { pos }

/-- An exponent at its `e`. -/
def exponent (b : ByteArray) (pos : Nat) : Except Fault Nat :=
  let p := pos + 1
  let p := if b[p]? == some 43 || b[p]? == some 45 then p + 1 else p
  (digitsFrom b p).mapError Fault.cut

/-- The text of a float: a decimal whole part, then an exponent, or a fraction and an exponent. -/
def floatText (b : ByteArray) (pos : Nat) : Except Fault Nat := do
  let p ← decimalInt b pos
  match b[p]? with
  | some 101 | some 69 => exponent b p
  | some 46 =>
    let q ← (digitsFrom b (p + 1)).mapError fun f => (f.expect ["digit"]).cut
    if b[q]? == some 101 || b[q]? == some 69 then exponent b q else pure q
  | _ => throw { pos := p }

/-- The double nearest to `m * 10^e`, infinite beyond the range of doubles. -/
def decimalFloat (m : Nat) (e : Int) : Float :=
  let digits : Int := (toString m).length
  if m == 0 then 0
  else if e + digits > 311 then Float.ofScientific 1 false 400
  else if e + digits < -330 then 0
  else if e < 0 then Float.ofScientific m true e.natAbs else Float.ofScientific m false e.toNat

/-- The value of a float's text. -/
def floatValue (text : String) : Float :=
  let cs := (text.toList.filter (· != '_'))
  let (neg, cs) := match cs with
    | '-' :: r => (true, r)
    | '+' :: r => (false, r)
    | r => (false, r)
  let mant := cs.takeWhile (fun c => c != 'e' && c != 'E')
  let expo := (cs.dropWhile (fun c => c != 'e' && c != 'E')).drop 1
  let whole := mant.takeWhile (· != '.')
  let frac := (mant.dropWhile (· != '.')).drop 1
  let e : Int := match expo with
    | '-' :: r => -(digitsValue 10 (String.ofList r) : Int)
    | '+' :: r => digitsValue 10 (String.ofList r)
    | r => digitsValue 10 (String.ofList r)
  let x := decimalFloat (digitsValue 10 (String.ofList (whole ++ frac))) (e - frac.length)
  if neg then -x else x

/-- A float: its text, or infinity or not-a-number with a sign. Infinity written with digits is
refused unless it is negative. -/
def float (b : ByteArray) (pos : Nat) : Except Fault (Float × Nat) :=
  match floatText b pos with
  | .ok q =>
    let x := floatValue (slice b pos q)
    if x.isInf && 0 < x then .error { pos, labels := ["floating-point number"], final := true }
    else .ok (x, q)
  | .error f =>
    if f.final then .error (f.label "floating-point number")
    else
      let (neg, p) := if b[pos]? == some 45 then (true, pos + 1)
        else if b[pos]? == some 43 then (false, pos + 1) else (false, pos)
      let sign (x : Float) := if neg then -x else x
      if looking b p "inf" then .ok (sign (Float.ofScientific 1 false 400), p + 3)
      else if looking b p "nan" then .ok (sign (0 / 0), p + 3)
      else .error { pos := p, labels := ["floating-point number"] }

/-- A whole number in base 16, 8 or 2 after its prefix. -/
def radixInt (b : ByteArray) (pos base : Nat) (isD : UInt8 → Bool) (label : String) :
    Except Fault (Int × Nat) :=
  let p := pos + 2
  let digits : Except Fault Nat := match b[p]? with
    | some c =>
      if isD c then (digitRun b isD (p + 1) b.size).mapError fun f => (f.label label).cut
      else .error { pos := p, labels := [label], final := true }
    | none => .error { pos := p, labels := [label], final := true }
  digits.bind fun q =>
    let v := digitsValue base (slice b p q)
    if v ≤ intMax then .ok (v, q)
    else .error { pos, cause := some "number too large to fit in target type", final := true }

/-- A whole number. -/
def integer (b : ByteArray) (pos : Nat) : Except Fault (Int × Nat) :=
  match b[pos]?, b[pos + 1]? with
  | some 48, some 120 => radixInt b pos 16 isHex "hexadecimal integer"
  | some 48, some 111 => radixInt b pos 8 (fun c => 48 ≤ c && c ≤ 55) "octal integer"
  | some 48, some 98 => radixInt b pos 2 (fun c => c == 48 || c == 49) "binary integer"
  | _, _ =>
    (decimalInt b pos).bind fun q =>
      let text := slice b pos q
      let v := digitsValue 10 (String.ofList (text.toList.filter fun c => c != '+' && c != '-'))
      if text.startsWith "-" then
        if v ≤ intMax + 1 then .ok (-(v : Int), q)
        else .error { pos, cause := some "number too small to fit in target type", final := true }
      else if v ≤ intMax then .ok (v, q)
      else .error { pos, cause := some "number too large to fit in target type", final := true }

/-- Exactly `n` digits at `pos` with a value from `lo` to `hi`. When the digits are there but out
of range the fault says so; `final` tells whether it ends reading. -/
def fixedDigits (b : ByteArray) (pos n lo hi : Nat) (final : Bool) : Except Fault (Nat × Nat) :=
  let q := scanAtMost b isDigit pos n
  if q - pos != n then .error { pos, final }
  else
    let v := digitsValue 10 (slice b pos q)
    if lo ≤ v && v ≤ hi then .ok (v, q)
    else .error { pos, cause := some "value is out of range", final }

/-- A time of day: hour, minute and second, and a fraction of a second. -/
def partialTime (b : ByteArray) (pos : Nat) : Except Fault Nat := do
  let (_, p) ← fixedDigits b pos 2 0 23 false
  if b[p]? != some 58 then throw { pos := p }
  let (_, p) ← fixedDigits b (p + 1) 2 0 59 true
  if b[p]? != some 58 then throw { pos := p, final := true }
  let (_, p) ← fixedDigits b (p + 1) 2 0 60 true
  if b[p]? == some 46 then
    let q := scan b isDigit (p + 1)
    pure (if q == p + 1 then p else q)
  else pure p

/-- The days of a month of a year. -/
def daysIn (year month : Nat) : Nat :=
  let leap := year % 4 == 0 && (year % 100 != 0 || year % 400 == 0)
  match month with
  | 2 => if leap then 29 else 28
  | 4 | 6 | 9 | 11 => 30
  | _ => 31

/-- A date: year, month and day. -/
def fullDate (b : ByteArray) (pos : Nat) : Except Fault Nat := do
  let (year, p) ← fixedDigits b pos 4 0 9999 false
  if b[p]? != some 45 then throw { pos := p }
  let (month, p) ← fixedDigits b (p + 1) 2 1 12 true
  if b[p]? != some 45 then throw { pos := p, final := true }
  let (day, q) ← fixedDigits b (p + 1) 2 1 31 true
  if daysIn year month < day then
    throw { pos := p + 1, cause := some "value is out of range", final := true }
  pure q

/-- The offset of a time from UTC, if one follows. -/
def timeOffset (b : ByteArray) (pos : Nat) : Except Fault (Option Nat) :=
  match b[pos]? with
  | some 90 | some 122 => .ok (some (pos + 1))
  | some 43 | some 45 =>
    let rest : Except Fault Nat := do
      let (_, p) ← fixedDigits b (pos + 1) 2 0 23 true
      if b[p]? != some 58 then throw { pos := p, final := true }
      let (_, p) ← fixedDigits b (p + 1) 2 0 59 true
      pure p
    match rest with
    | .ok q => .ok (some q)
    | .error f => .error ((f.label "time offset").cut)
  | _ => .ok none

/-- A date, a date and time with or without an offset, or a time. -/
def dateTime (b : ByteArray) (pos : Nat) : Except Fault (DateKind × Nat) :=
  match fullDate b pos with
  | .ok p =>
    if b[p]? == some 84 || b[p]? == some 116 || b[p]? == some 32 then
      match partialTime b (p + 1) with
      | .ok q =>
        match timeOffset b q with
        | .ok (some r) => .ok (.offsetDateTime, r)
        | .ok none => .ok (.localDateTime, q)
        | .error f => .error f
      | .error f => if f.final then .error f else .ok (.localDate, p)
    else .ok (.localDate, p)
  | .error f =>
    if f.final then .error f
    else (partialTime b pos).map fun q => (.localTime, q)

/-- A value that starts like a number: a date or time, a float, or a whole number, tried in turn. -/
def number (b : ByteArray) (pos : Nat) : Except Fault (Value × Nat) :=
  match dateTime b pos with
  | .ok (k, q) => .ok (.date k ⟨pos, q⟩, q)
  | .error f =>
    if f.final then .error f
    else match float b pos with
      | .ok (x, q) => .ok (.float x ⟨pos, q⟩, q)
      | .error f =>
        if f.final then .error f
        else (integer b pos).map fun (n, q) => (.int n ⟨pos, q⟩, q)

/-! ### Tables of entries -/

/-- Why entries cannot be put where they are written. -/
inductive Clash where
  /-- A key defined twice, in a table named by its path (the root when empty) or in no table
  named. -/
  | duplicateKey (key : String) (table : Option (List String))
  /-- A dotted key running through a value that is no table. -/
  | notTable (path : List String) (kind : String)

/-- The sentence for a clash. -/
def Clash.message : Clash → String
  | .duplicateKey k none => "duplicate key " ++ mark k
  | .duplicateKey k (some []) => "duplicate key " ++ mark k ++ " in document root"
  | .duplicateKey k (some t) => "duplicate key " ++ mark k ++ " in table " ++ mark (".".intercalate t)
  | .notTable p kind =>
    "dotted key " ++ mark (".".intercalate p) ++ " attempted to extend non-table type (" ++ kind ++ ")"

/-- The entry of a key. -/
def lookup (es : Entries) (name : String) : Option Value :=
  (es.find? (·.1.name == name)).map (·.2)

/-- Sets the value of a key that is there. -/
def replace (es : Entries) (name : String) (v : Value) : Entries :=
  es.map fun (k, w) => if k.name == name then (k, v) else (k, w)

/-- Walks down a path of keys from a table's entries, making missing tables on the way (made by
dotted keys when `dotted`), and changes the entries at the end by `f`, which is told whether that
table was made by dotted keys. A dotted key may not run through a table with a header of its own;
an array of tables is entered at its last table. -/
def descend (dotted : Bool) (whole : List Key) (f : Entries → Bool → Except Clash (Entries × α)) :
    Entries → Bool → List Key → Except Clash (Entries × α)
  | es, here, [] => f es here
  | es, _, k :: rest =>
    let walked := (whole.take (whole.length - rest.length)).map (·.name)
    match lookup es k.name with
    | none => do
      let (sub, a) ← descend dotted whole f [] dotted rest
      pure (es ++ [(k, .table sub (if dotted then .dotted else .implicit) none)], a)
    | some (.table sub form span) =>
      if dotted && !form.isImplicit then .error (.duplicateKey k.name none)
      else do
        let (sub, a) ← descend dotted whole f sub (form == .dotted) rest
        pure (replace es k.name (.table sub form span), a)
    | some (.tables items span) =>
      match items.getLast? with
      | some (.table sub form tspan) => do
        let (sub, a) ← descend dotted whole f sub false rest
        pure (replace es k.name (.tables (items.dropLast ++ [.table sub form tspan]) span), a)
      | _ => .error (.notTable walked "array of tables")
    | some v => .error (.notTable walked v.typeName)

/-- Puts the entries of an inline table together: dotted keys make inline tables on their way,
and a key is defined once. -/
def inlineInsert (es : Entries) (path : List Key) (k : Key) (v : Value) : Except Clash Entries :=
  go es false path
where
  go (es : Entries) (here : Bool) : List Key → Except Clash Entries
    | [] =>
      if here == path.isEmpty then .error (.duplicateKey k.name none)
      else if (lookup es k.name).isSome then .error (.duplicateKey k.name none)
      else .ok (es ++ [(k, v)])
    | j :: rest =>
      let walked := (path.take (path.length - rest.length)).map (·.name)
      match lookup es j.name with
      | none => do
        let sub ← go [] true rest
        pure (es ++ [(j, .inline sub true none)])
      | some (.inline sub d span) => do
        let sub ← go sub d rest
        pure (replace es j.name (.inline sub d span))
      | some w => .error (.notTable walked w.typeName)

/-! ### Values -/

mutual

/-- A value, at its first byte. Lists and inline tables nest at most `depthLimit` deep; `fuel`
bounds the reading of nested parts. -/
def value (b : ByteArray) (pos depth fuel : Nat) : Except Fault (Value × Nat) :=
  match fuel with
  | 0 => .error { pos, cause := some "recursion limit exceeded", final := true }
  | fuel + 1 =>
    let word (w : String) (v : Value) : Except Fault (Value × Nat) :=
      if looking b pos w then .ok (v, pos + w.utf8ByteSize)
      else .error { pos, labels := ["string"], expected := quoteMarks }
    match b[pos]? with
    | some 34 | some 39 => (string b pos).map fun (s, q) => (.str s ⟨pos, q⟩, q)
    | some 91 =>
      if depth + 1 ≥ depthLimit then .error { pos := pos + 1, cause := some "recursion limit exceeded" }
      else do
        let (items, p) ← listItems b (pos + 1) (depth + 1) [] fuel
        let p := gaps b p
        if b[p]? == some 93 then pure (.array items ⟨pos, p + 1⟩, p + 1)
        else throw { pos := p, labels := ["array"], expected := [mark "]"], final := true }
    | some 123 =>
      if depth + 1 ≥ depthLimit then .error { pos := pos + 1, cause := some "recursion limit exceeded" }
      else do
        let (pairs, p) ← inlinePairs b (pos + 1) (depth + 1) [] fuel
        let es ← (pairs.foldlM (fun es (path, k, v) => inlineInsert es path k v) []).mapError
          fun (c : Clash) => { pos := pos + 1, cause := some c.message, final := true }
        let p := blanks b p
        if b[p]? == some 125 then pure (.inline es false (some ⟨pos, p + 1⟩), p + 1)
        else throw { pos := p, labels := ["inline table"], expected := [mark "\x7d"], final := true }
    | some 95 =>
      match integer b pos with
      | .ok (n, q) => .ok (.int n ⟨pos, q⟩, q)
      | .error f => .error (f.expect ["leading digit"])
    | some 46 =>
      match float b pos with
      | .ok (x, q) => .ok (.float x ⟨pos, q⟩, q)
      | .error f => .error (f.expect ["leading digit"])
    | some 116 => word "true" (.bool true ⟨pos, pos + 4⟩)
    | some 102 => word "false" (.bool false ⟨pos, pos + 5⟩)
    | some 105 => word "inf" (.float (Float.ofScientific 1 false 400) ⟨pos, pos + 3⟩)
    | some 110 => word "nan" (.float (0 / 0) ⟨pos, pos + 3⟩)
    | some c =>
      if c == 43 || c == 45 || isDigit c then number b pos
      else .error { pos, labels := ["string"], expected := quoteMarks }
    | none => .error { pos, labels := ["string"], expected := quoteMarks }
termination_by structural fuel

/-- The items of a list after its opening bracket: values between gaps, joined by commas, with
a comma allowed after the last. A value that cannot be read ends the items. -/
def listItems (b : ByteArray) (pos depth : Nat) (acc : List Value) (fuel : Nat) :
    Except Fault (List Value × Nat) :=
  match fuel with
  | 0 => .ok (acc, pos)
  | fuel + 1 =>
    match value b (gaps b pos) depth fuel with
    | .error f => if f.final then .error f else .ok (acc, pos)
    | .ok (v, q) =>
      let q := gaps b q
      if b[q]? == some 44 then listItems b (q + 1) depth (acc ++ [v]) fuel
      else .ok (acc ++ [v], q)
termination_by structural fuel

/-- The pairs of an inline table after its opening brace, joined by commas. -/
def inlinePairs (b : ByteArray) (pos depth : Nat) (acc : List (List Key × Key × Value))
    (fuel : Nat) : Except Fault (List (List Key × Key × Value) × Nat) :=
  match fuel with
  | 0 => .ok (acc, pos)
  | fuel + 1 =>
    match key b pos with
    | .error f => if f.final then .error f else .ok (acc, pos)
    | .ok (ks, p) =>
      if b[p]? != some 61 then .error { pos := p, expected := [mark ".", mark "="], final := true }
      else
        match value b (blanks b (p + 1)) depth fuel with
        | .error f => .error f.cut
        | .ok (v, q) =>
          let q := blanks b q
          let pair := (ks.dropLast, (ks.getLast?.getD default), v)
          if b[q]? == some 44 then
            match key b (q + 1) with
            | .error f => if f.final then .error f else .ok (acc ++ [pair], q)
            | .ok _ => inlinePairs b (q + 1) depth (acc ++ [pair]) fuel
          else .ok (acc ++ [pair], q)
termination_by structural fuel

end

/-! ### Documents -/

/-- A document being read: the root table (once the first header is met), the table being
filled, its header's path and span, and whether it belongs to an array of tables. -/
structure State where
  root : Entries := []
  current : Entries := []
  path : List Key := []
  inArray : Bool := false
  span : Option Span := none

namespace State

/-- Puts the table being filled into the document. -/
def finish (s : State) : Except Clash State :=
  match s.path.getLast? with
  | none => .ok { s with root := s.current, current := [] }
  | some k =>
    let parent := s.path.dropLast
    let names := parent.map (·.name)
    let filled := Value.table s.current .header s.span
    let put : Entries → Bool → Except Clash (Entries × Unit) := fun es _ =>
      if s.inArray then
        match lookup es k.name with
        | none => .ok (es ++ [(k, .tables [filled] s.span)], ())
        | some (.tables items _) =>
          let items := items ++ [filled]
          let span := match (items.head?.bind Value.span?), (items.getLast?.bind Value.span?) with
            | some a, some z => some ⟨a.start, z.stop⟩
            | _, _ => none
          .ok (replace es k.name (.tables items span), ())
        | some _ => .error (.duplicateKey k.name (some names))
      else
        match lookup es k.name with
        | none => .ok (es ++ [(k, filled)], ())
        | some (.table _ form _) =>
          if form.isImplicit then .ok (replace es k.name filled, ())
          else .error (.duplicateKey k.name (some names))
        | some _ => .error (.duplicateKey k.name (some names))
    (descend false parent put s.root false parent).map fun (root, _) =>
      { s with root, current := [] }

/-- Starts the table of a header `[path]`: a table only made on the way so far is taken up; any
other value of that key is a second definition. -/
def header (s : State) (path : List Key) (span : Span) : Except Clash State := do
  let s ← s.finish
  let parent := path.dropLast
  let k := (path.getLast?.getD default)
  let (root, taken) ← descend false parent (fun es _ =>
    match lookup es k.name with
    | none => .ok (es, [])
    | some (.table sub .implicit _) => .ok (es.filter (·.1.name != k.name), sub)
    | some _ => .error (.duplicateKey k.name (some (parent.map (·.name))))) s.root false parent
  pure { root, current := taken, path, inArray := false, span := some span }

/-- Starts the next table of an array of tables `[[path]]`. -/
def arrayHeader (s : State) (path : List Key) (span : Span) : Except Clash State := do
  let s ← s.finish
  let parent := path.dropLast
  let k := (path.getLast?.getD default)
  let (root, _) ← descend false parent (fun es _ =>
    match lookup es k.name with
    | none => .ok (es ++ [(k, .tables [] none)], ())
    | some (.tables _ _) => .ok (es, ())
    | some _ => .error (.duplicateKey k.name (some (parent.map (·.name))))) s.root false parent
  pure { root, current := [], path, inArray := true, span := some span }

/-- Puts `path = v` into the table being filled. -/
def keyval (s : State) (path : List Key) (k : Key) (v : Value) : Except Clash State := do
  let (current, _) ← descend true path (fun es here =>
    if here == path.isEmpty then .error (.duplicateKey k.name none)
    else if (lookup es k.name).isSome then
      .error (.duplicateKey k.name (some (s.path.map (·.name))))
    else .ok (es ++ [(k, v)], ())) s.current false path
  pure { s with current }

end State

/-- A header line at its first bracket: the path, whether it names an array of tables, its span,
and the place after the line. -/
def header (b : ByteArray) (pos : Nat) : Except Fault (Bool × List Key × Span × Nat) := do
  let array := b[pos + 1]? == some 91
  let close := if array then "]]" else "]"
  let (path, p) ← (key b (pos + close.length)).mapError fun f => (f.label "table header").cut
  if !looking b p close then
    throw { pos := p, labels := ["table header"], expected := [mark ".", mark close], final := true }
  let q := p + close.length
  let r ← (lineTail b q).mapError fun f =>
    ((f.expect [mark "\n", mark "#"]).label "table header").cut
  pure (array, path, ⟨pos, q⟩, r)

/-- A line `key = value`: the path before the last key, the last key, the value and the place
after the line. -/
def keyvalLine (b : ByteArray) (pos : Nat) : Except Fault (List Key × Key × Value × Nat) := do
  let (ks, p) ← (key b pos).mapError Fault.cut
  if b[p]? != some 61 then throw { pos := p, expected := [mark ".", mark "="], final := true }
  let (v, q) ← (value b (blanks b (p + 1)) 0 (2 * b.size + 2)).mapError Fault.cut
  let r ← (lineTail b q).mapError fun f => (f.expect [mark "\n", mark "#"]).cut
  pure (ks.dropLast, (ks.getLast?.getD default), v, r)

/-- An error of a document: the span it points at, if any, and its message. -/
structure Problem where
  span : Option Span
  message : String

/-- A fault as a problem pointing at the byte where reading stopped. -/
def Fault.problem (b : ByteArray) (f : Fault) : Problem :=
  ⟨some ⟨f.pos, if f.pos < b.size then f.pos + 1 else f.pos⟩, f.message⟩

/-- The lines of a document from `pos` on: blank lines, comments, headers and key-value lines. -/
def lines (b : ByteArray) (pos : Nat) (s : State) : Nat → Except Problem Entries
  | 0 => .error ⟨none, "recursion limit exceeded"⟩
  | fuel + 1 =>
    let fault (f : Fault) : Except Problem Entries := .error (f.problem b)
    match b[pos]? with
    | none =>
      match s.finish with
      | .ok s => .ok s.root
      | .error c => .error ⟨none, c.message⟩
    | some 35 =>
      let p := (comment b pos).getD pos
      match lineEnd b p with
      | some q => lines b (blanks b q) s fuel
      | none => fault { pos := p }
    | some 91 =>
      match header b pos with
      | .error f => fault f
      | .ok (array, path, span, q) =>
        match (if array then s.arrayHeader path span else s.header path span) with
        | .ok s => lines b (blanks b q) s fuel
        | .error c => fault { pos, labels := ["table header"], cause := some c.message }
    | some 10 => lines b (blanks b (pos + 1)) s fuel
    | some 13 =>
      match newline b pos with
      | some q => lines b (blanks b q) s fuel
      | none => fault { pos }
    | some _ =>
      match keyvalLine b pos with
      | .error f => fault f
      | .ok (path, k, v, q) =>
        match s.keyval path k v with
        | .ok s => lines b (blanks b q) s fuel
        | .error c => fault { pos, cause := some c.message }

/-- Reads a document: the entries of its root table, or the problem that stopped the reading.
A byte-order mark at the start is skipped. -/
def document (b : ByteArray) : Except Problem Entries :=
  let start := if b[0]? == some 0xEF && b[1]? == some 0xBB && b[2]? == some 0xBF then 3 else 0
  lines b (blanks b start) {} (b.size + 2)

/-- Reads a text as a document. -/
def read (text : String) : Except Problem Entries := document text.toUTF8

end Courier.Toml
