-- Reading JSON text with a cursor over its UTF-8 bytes, so an error names its line and column; whole
-- numbers that fit in 64 bits stay whole.
import Courier.Json.Basic

namespace Courier.Json

/-- What went wrong while reading the text itself. -/
inductive Fault where
  | eofValue
  | eofString
  | eofList
  | eofObject
  | expectedColon
  | expectedListCommaOrEnd
  | expectedObjectCommaOrEnd
  | expectedIdent
  | expectedValue
  | invalidEscape
  | invalidNumber
  | numberOutOfRange
  | controlCharacter
  | keyMustBeString
  | loneSurrogate
  | trailingComma
  | trailingCharacters
  | hexEscapeEnd
deriving DecidableEq, Repr

/-- The sentence that names a fault. -/
def Fault.message : Fault → String
  | .eofValue => "EOF while parsing a value"
  | .eofString => "EOF while parsing a string"
  | .eofList => "EOF while parsing a list"
  | .eofObject => "EOF while parsing an object"
  | .expectedColon => "expected `:`"
  | .expectedListCommaOrEnd => "expected `,` or `]`"
  | .expectedObjectCommaOrEnd => "expected `,` or `\x7d`"
  | .expectedIdent => "expected ident"
  | .expectedValue => "expected value"
  | .invalidEscape => "invalid escape"
  | .invalidNumber => "invalid number"
  | .numberOutOfRange => "number out of range"
  | .controlCharacter => "control character (\\u0000-\\u001F) found while parsing a string"
  | .keyMustBeString => "key must be a string"
  | .loneSurrogate => "lone leading surrogate in hex escape"
  | .trailingComma => "trailing comma"
  | .trailingCharacters => "trailing characters"
  | .hexEscapeEnd => "unexpected end of hex escape"

/-- An error with the place where it was found. -/
structure Located where
  message : String
  line : Nat
  column : Nat
deriving Repr

/-- The error as one sentence ending in its place. -/
def Located.text (e : Located) : String :=
  s!"{e.message} at line {e.line} column {e.column}"

/-- A position in the bytes of a text. -/
structure Cursor where
  bytes : ByteArray
  pos : Nat

namespace Cursor

/-- A cursor at the start of a text. -/
def ofString (s : String) : Cursor := ⟨s.toUTF8, 0⟩

/-- The byte under the cursor. -/
def peek? (c : Cursor) : Option UInt8 :=
  if h : c.pos < c.bytes.size then some (c.bytes.get c.pos h) else none

/-- The cursor one byte further. -/
def next (c : Cursor) : Cursor := { c with pos := c.pos + 1 }

/-- Line and column of the place before byte `i`: lines count from one, columns count the bytes
read on the line. -/
def placeOf (c : Cursor) (i : Nat) : Nat × Nat :=
  let before := (c.bytes.toList.take i)
  let lineStart := before.length - (before.reverse.takeWhile (· != 10)).length
  (1 + before.count 10, i - lineStart)

/-- An error found after reading up to the cursor. -/
def fail (c : Cursor) (msg : String) : Located :=
  let (l, col) := c.placeOf c.pos
  ⟨msg, l, col⟩

/-- An error found by looking at the byte under the cursor, which counts as read. -/
def failAhead (c : Cursor) (msg : String) : Located :=
  let (l, col) := c.placeOf (min c.bytes.size (c.pos + 1))
  ⟨msg, l, col⟩

/-- Skips blanks: space, tab, line feed and carriage return. -/
def skipBlank (c : Cursor) : Cursor := go c (c.bytes.size - c.pos)
where
  go (c : Cursor) : Nat → Cursor
    | 0 => c
    | n + 1 =>
      match c.peek? with
      | some b => if b == 32 || b == 9 || b == 10 || b == 13 then go c.next n else c
      | none => c

/-- Reads the letters of a keyword after its first one. -/
def keyword (c : Cursor) (rest : List Char) : Except Located Cursor :=
  rest.foldlM (fun c ch =>
    match c.peek? with
    | none => .error (c.fail Fault.eofValue.message)
    | some b => if b.toNat == ch.toNat then .ok c.next else .error (c.next.fail Fault.expectedIdent.message)) c

/-- The value of a hex digit byte. -/
def hexValue (b : UInt8) : Option Nat :=
  let n := b.toNat
  if 48 ≤ n && n ≤ 57 then some (n - 48)
  else if 97 ≤ n && n ≤ 102 then some (n - 87)
  else if 65 ≤ n && n ≤ 70 then some (n - 55)
  else none

/-- Reads four hex digits. -/
def hex4 (c : Cursor) : Except Located (Nat × Cursor) :=
  [0, 1, 2, 3].foldlM (fun (acc, c) (_ : Nat) =>
    match c.peek? with
    | none => .error (c.fail Fault.eofString.message)
    | some b => match hexValue b with
      | some v => .ok (acc * 16 + v, c.next)
      | none => .error (c.next.fail Fault.invalidEscape.message)) (0, c)

/-- The UTF-8 bytes of a code point. -/
def utf8Of (n : Nat) : List UInt8 := (String.singleton (Char.ofNat n)).toUTF8.toList

/-- Reads the body of a string after its opening quote, up to and past the closing quote. -/
def stringBody (c : Cursor) : Nat → List UInt8 → Except Located (String × Cursor)
  | 0, _ => .error (c.fail Fault.eofString.message)
  | fuel + 1, acc =>
    match c.peek? with
    | none => .error (c.fail Fault.eofString.message)
    | some 34 =>
      match String.fromUTF8? (ByteArray.mk acc.reverse.toArray) with
      | some s => .ok (s, c.next)
      | none => .error (c.next.fail "invalid unicode code point")
    | some 92 =>
      let c := c.next
      match c.peek? with
      | none => .error (c.fail Fault.eofString.message)
      | some e =>
        let simple (b : UInt8) := stringBody c.next fuel (b :: acc)
        match e with
        | 34 => simple 34
        | 92 => simple 92
        | 47 => simple 47
        | 98 => simple 8
        | 102 => simple 12
        | 110 => simple 10
        | 114 => simple 13
        | 116 => simple 9
        | 117 =>
          match hex4 c.next with
          | .error err => .error err
          | .ok (n, c) =>
            if 0xDC00 ≤ n && n < 0xE000 then .error (c.fail Fault.loneSurrogate.message)
            else if 0xD800 ≤ n && n < 0xDC00 then
              if c.peek? == some 92 && c.next.peek? == some 117 then
                match hex4 c.next.next with
                | .error err => .error err
                | .ok (m, c) =>
                  if 0xDC00 ≤ m && m < 0xE000 then
                    let cp := 0x10000 + (n - 0xD800) * 0x400 + (m - 0xDC00)
                    stringBody c fuel ((utf8Of cp).reverse ++ acc)
                  else .error (c.fail Fault.loneSurrogate.message)
              else .error (c.fail Fault.loneSurrogate.message)
            else stringBody c fuel ((utf8Of n).reverse ++ acc)
        | _ => .error (c.next.fail Fault.invalidEscape.message)
    | some b =>
      if b < 32 then .error (c.next.fail Fault.controlCharacter.message)
      else stringBody c.next fuel (b :: acc)

/-- Reads a string whose opening quote is under the cursor. -/
def string (c : Cursor) : Except Located (String × Cursor) :=
  stringBody c.next (c.bytes.size + 1) []

/-- Reads a run of decimal digits. -/
def digits (c : Cursor) : List Nat × Cursor := go c [] (c.bytes.size - c.pos)
where
  go (c : Cursor) (acc : List Nat) : Nat → List Nat × Cursor
    | 0 => (acc.reverse, c)
    | n + 1 =>
      match c.peek? with
      | some b => if 48 ≤ b && b ≤ 57 then go c.next ((b.toNat - 48) :: acc) n else (acc.reverse, c)
      | none => (acc.reverse, c)

/-- The number that a list of decimal digits spells. -/
def digitsValue (ds : List Nat) : Nat := ds.foldl (fun acc d => acc * 10 + d) 0

/-- A number read from text: whole when it has no fraction or exponent and fits in 64 bits. -/
def numberValue (neg : Bool) (whole : Nat) (frac : List Nat) (exp : Int) (plainInt : Bool) :
    Except Fault Json :=
  if plainInt && ((!neg && whole < Nat.pow 2 64) || (neg && whole ≤ Nat.pow 2 63)) then
    .ok (.int (if neg then -(whole : Int) else whole))
  else
    let mant := whole * Nat.pow 10 frac.length + digitsValue frac
    let e := exp - frac.length
    let x : Float := if e < 0 then Float.ofScientific mant true (-e).toNat
      else Float.ofScientific mant false e.toNat
    if x.isInf then .error .numberOutOfRange
    else .ok (.float (if neg then -x else x))

/-- Reads a number whose first byte (a digit or a minus sign) is under the cursor. -/
def number (c : Cursor) : Except Located (Json × Cursor) := do
  let (neg, c) := if c.peek? == some 45 then (true, c.next) else (false, c)
  let (whole, c) ← match c.peek? with
    | none => .error (c.fail Fault.eofValue.message)
    | some 48 =>
      let c := c.next
      let b := c.peek?.getD 0
      if 48 ≤ b && b ≤ 57 then .error (c.failAhead Fault.invalidNumber.message) else .ok (0, c)
    | some b =>
      if 49 ≤ b && b ≤ 57 then
        let (ds, c) := digits c
        .ok (digitsValue ds, c)
      else .error (c.next.fail Fault.invalidNumber.message)
  let (frac, hasFrac, c) ← if c.peek? == some 46 then
      let (ds, c2) := digits c.next
      if ds.isEmpty then
        match c2.peek? with
        | some _ => .error (c2.failAhead Fault.invalidNumber.message)
        | none => .error (c2.failAhead Fault.eofValue.message)
      else .ok (ds, true, c2)
    else .ok ([], false, c)
  let (exp, hasExp, c) ← if c.peek? == some 101 || c.peek? == some 69 then
      let c := c.next
      let (eneg, c) := if c.peek? == some 45 then (true, c.next)
        else if c.peek? == some 43 then (false, c.next) else (false, c)
      let (ds, c2) := digits c
      if ds.isEmpty then
        match c2.peek? with
        | some _ => .error (c2.failAhead Fault.invalidNumber.message)
        | none => .error (c2.failAhead Fault.eofValue.message)
      else
        let v : Int := digitsValue ds
        .ok (if eneg then -v else v, true, c2)
    else .ok (0, false, c)
  match numberValue neg whole frac exp (!hasFrac && !hasExp) with
  | .ok j => .ok (j, c)
  | .error f => .error (c.fail f.message)

mutual

/-- Reads one value, after blanks. -/
def value (c : Cursor) : Nat → Except Located (Json × Cursor)
  | 0 => .error (c.fail "recursion limit exceeded")
  | fuel + 1 =>
    let c := c.skipBlank
    match c.peek? with
    | none => .error (c.failAhead Fault.eofValue.message)
    | some b =>
      match b with
      | 110 => (keyword c.next "ull".toList).map (fun c => (.null, c))
      | 116 => (keyword c.next "rue".toList).map (fun c => (.bool true, c))
      | 102 => (keyword c.next "alse".toList).map (fun c => (.bool false, c))
      | 34 => (string c).map (fun (s, c) => (.str s, c))
      | 91 => items c.next true [] fuel
      | 123 => fields c.next true [] fuel
      | _ =>
        if b == 45 || (48 ≤ b && b ≤ 57) then number c
        else .error (c.failAhead Fault.expectedValue.message)

/-- Reads the items of an array after its opening bracket, up to and past the closing one. -/
def items (c : Cursor) (first : Bool) (acc : List Json) : Nat → Except Located (Json × Cursor)
  | 0 => .error (c.fail "recursion limit exceeded")
  | fuel + 1 =>
    let c := c.skipBlank
    match c.peek? with
    | none => .error (c.failAhead Fault.eofList.message)
    | some 93 => .ok (.arr acc.reverse, c.next)
    | some b =>
      if first then
        match value c fuel with
        | .ok (v, c) => items c false (v :: acc) fuel
        | .error e => .error e
      else if b == 44 then
        let c := c.next.skipBlank
        match c.peek? with
        | some 93 => .error (c.failAhead Fault.trailingComma.message)
        | none => .error (c.failAhead Fault.eofValue.message)
        | some _ =>
          match value c fuel with
          | .ok (v, c) => items c false (v :: acc) fuel
          | .error e => .error e
      else .error (c.failAhead Fault.expectedListCommaOrEnd.message)

/-- Reads the fields of an object after its opening brace, up to and past the closing one. -/
def fields (c : Cursor) (first : Bool) (acc : List (String × Json)) :
    Nat → Except Located (Json × Cursor)
  | 0 => .error (c.fail "recursion limit exceeded")
  | fuel + 1 =>
    let c := c.skipBlank
    match c.peek? with
    | none => .error (c.failAhead Fault.eofObject.message)
    | some 125 => .ok (.obj acc.reverse, c.next)
    | some b =>
      let keyAt : Except Located Cursor :=
        if first then .ok c
        else if b == 44 then .ok c.next.skipBlank
        else .error (c.failAhead Fault.expectedObjectCommaOrEnd.message)
      match keyAt with
      | .error e => .error e
      | .ok c =>
        match c.peek? with
        | some 34 =>
          match string c with
          | .error e => .error e
          | .ok (k, c) =>
            let c := c.skipBlank
            match c.peek? with
            | some 58 =>
              match value c.next fuel with
              | .ok (v, c) => fields c false ((k, v) :: acc) fuel
              | .error e => .error e
            | some _ => .error (c.failAhead Fault.expectedColon.message)
            | none => .error (c.failAhead Fault.eofObject.message)
        | some 125 => .error (c.failAhead Fault.trailingComma.message)
        | some _ => .error (c.failAhead Fault.keyMustBeString.message)
        | none => .error (c.failAhead Fault.eofValue.message)

end

/-- Checks that only blanks follow. -/
def finish (c : Cursor) : Except Located Unit :=
  let c := c.skipBlank
  match c.peek? with
  | none => .ok ()
  | some _ => .error (c.failAhead Fault.trailingCharacters.message)

end Cursor

/-- Reads a whole text as one JSON value. -/
def read (s : String) : Except Located Json := do
  let c := Cursor.ofString s
  let (v, c) ← c.value (c.bytes.size + 2)
  c.finish
  return v

end Courier.Json
