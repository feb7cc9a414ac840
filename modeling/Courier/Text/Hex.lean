-- Hex text of bytes, two digits a byte: written in either case, read in both, with the first fault
-- named.
import Courier.Text.Quoted

namespace Courier.Text

/-- The hex digit of a value below 16, in upper or lower case. -/
def hexDigit (upper : Bool) (n : Nat) : Char :=
  if n < 10 then Char.ofNat (48 + n) else Char.ofNat ((if upper then 55 else 87) + n)

/-- Two hex digits for one byte. -/
def hexPair (upper : Bool) (b : UInt8) : List Char :=
  [hexDigit upper (b.toNat / 16), hexDigit upper (b.toNat % 16)]

/-- The hex text of a list of bytes. -/
def hexOf (upper : Bool) (bs : List UInt8) : String :=
  String.ofList (bs.flatMap (hexPair upper))

/-- Why a text is no hex text of bytes. -/
inductive HexError where
  | oddLength
  | invalidChar (c : Char) (index : Nat)
deriving DecidableEq, Repr

/-- The sentence that names a hex error; a bad byte is shown as the character of that code. -/
def HexError.message : HexError → String
  | .oddLength => "Odd number of digits"
  | .invalidChar c i => "Invalid character " ++ quoteChar c ++ " at position " ++ toString i

/-- The value of one hex digit byte, in either case. -/
def hexValue? (b : UInt8) : Option Nat :=
  let n := b.toNat
  if 48 ≤ n && n ≤ 57 then some (n - 48)
  else if 97 ≤ n && n ≤ 102 then some (n - 87)
  else if 65 ≤ n && n ≤ 70 then some (n - 55)
  else none

/-- Reads pairs of digit bytes from place `i` on. -/
def readPairs : List UInt8 → Nat → Except HexError (List UInt8)
  | hi :: lo :: rest, i => do
    let h ← match hexValue? hi with
      | some v => pure v
      | none => throw (.invalidChar (Char.ofNat hi.toNat) i)
    let l ← match hexValue? lo with
      | some v => pure v
      | none => throw (.invalidChar (Char.ofNat lo.toNat) (i + 1))
    let rest ← readPairs rest (i + 2)
    return (h * 16 + l).toUInt8 :: rest
  | _, _ => pure []

/-- The bytes that a hex text spells, read over its UTF-8 bytes. -/
def readHex (s : String) : Except HexError (List UInt8) :=
  let bs := s.toUTF8.toList
  if bs.length % 2 == 1 then .error .oddLength else readPairs bs 0

end Courier.Text
