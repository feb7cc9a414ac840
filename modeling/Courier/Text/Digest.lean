-- Short texts for byte strings: up to 32 bytes in hex, a longer string named by its 64-bit FNV-1a
-- digest.
import Courier.Text.Hex

namespace Courier.Text

/-- The 64-bit FNV-1a digest of a byte string. -/
def fnv1a64 (bs : ByteArray) : UInt64 :=
  bs.foldl (fun h b => (h ^^^ b.toUInt64) * 0x100000001b3) 0xcbf29ce484222325

/-- Sixteen lower-case hex digits of a 64-bit number. -/
def hex16 (n : UInt64) : String :=
  String.ofList ((List.range 16).reverse.map fun i => hexDigit false (n.toNat / Nat.pow 16 i % 16))

/-- A byte string as hex when it is at most 32 bytes long, else as its digest. -/
def bytesText (bs : ByteArray) : String :=
  if bs.size ≤ 32 then hexOf false bs.toList else "fnv1a64:" ++ hex16 (fnv1a64 bs)

end Courier.Text
