-- Quoted text for messages: quote marks, backslash escapes, and `\u{hex}` for hidden characters and
-- those that extend the one before.
import Courier.Text.Glyph

namespace Courier.Text

/-- Which quote marks enclose a text and which of the two marks are escaped inside it. -/
structure QuoteStyle where
  mark : Char
  escapeSingle : Bool
  escapeDouble : Bool

/-- The single quote mark. -/
def apostrophe : Char := Char.ofNat 39

/-- Lower-case hex digits of a number, without leading zeros. -/
def hexDigits (n : Nat) : String := String.ofList (Nat.toDigits 16 n)

/-- The written form of one character inside quotes. -/
def QuoteStyle.escape (s : QuoteStyle) (c : Char) : String :=
  match c with
  | '\x00' => "\\0"
  | '\t' => "\\t"
  | '\r' => "\\r"
  | '\n' => "\\n"
  | '\\' => "\\\\"
  | c =>
    if c == '"' && s.escapeDouble then "\\\""
    else if c == apostrophe && s.escapeSingle then "\\" ++ String.singleton apostrophe
    else if isExtending c || (c.toNat < 0x20 || c.toNat == 0x7F) || (0x7F < c.toNat && isHidden c) then
      "\\u" ++ "\x7b" ++ hexDigits c.toNat ++ "\x7d"
    else String.singleton c

/-- A text in quote marks, with its characters escaped by the style. -/
def QuoteStyle.quote (s : QuoteStyle) (t : String) : String :=
  String.singleton s.mark ++ String.join (t.toList.map s.escape) ++ String.singleton s.mark

/-- Paths in messages: double quotes, and both kinds of quote mark escaped. -/
def quotePath (t : String) : String := QuoteStyle.quote ⟨'"', true, true⟩ t

/-- Text in messages: double quotes, and only the double quote escaped. -/
def quoteString (t : String) : String := QuoteStyle.quote ⟨'"', false, true⟩ t

/-- A single character in messages: single quotes, and only the single quote escaped. -/
def quoteChar (c : Char) : String := QuoteStyle.quote ⟨apostrophe, true, false⟩ (String.singleton c)

end Courier.Text
