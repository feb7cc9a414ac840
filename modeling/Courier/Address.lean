-- Public keys and friend addresses: the key, a four-byte nospam and a two-byte checksum that folds
-- the first 36 bytes with xor. The text of an address is its 38 bytes in upper-case hex; reading one
-- trims blanks and checks the length, then the digits, then the checksum.
import Courier.Text.Hex
import Courier.Text.Blank

namespace Courier

/-- A public key: exactly 32 bytes. -/
structure PublicKey where
  bytes : List UInt8
  length_eq : bytes.length = 32
deriving DecidableEq

namespace PublicKey

/-- The key of 32 equal bytes. -/
def replicate (b : UInt8) : PublicKey := ⟨List.replicate 32 b, by simp⟩

/-- The key with the given bytes, if there are 32 of them. -/
def ofBytes? (bs : List UInt8) : Option PublicKey :=
  if h : bs.length = 32 then some ⟨bs, h⟩ else none

/-- The key in upper-case hex, 64 digits. -/
def hex (k : PublicKey) : String := Text.hexOf true k.bytes

/-- The key as it is shown in a structure: `PublicKey(HEX)`. -/
def debug (k : PublicKey) : String := "PublicKey(" ++ k.hex ++ ")"

instance : Inhabited PublicKey := ⟨replicate 0⟩

end PublicKey

/-- The bytes of a 32-bit number, high byte first. -/
def beBytes32 (n : UInt32) : List UInt8 :=
  [(n >>> 24).toUInt8, (n >>> 16).toUInt8, (n >>> 8).toUInt8, n.toUInt8]

/-- The number of four bytes, high byte first. -/
def ofBeBytes (bs : List UInt8) : Nat := bs.foldl (fun acc b => acc * 256 + b.toNat) 0

/-- The xor of the bytes at even places and the xor of the bytes at odd places. -/
def foldPairs : List UInt8 → UInt8 × UInt8
  | a :: b :: rest => let (x, y) := foldPairs rest; (a ^^^ x, b ^^^ y)
  | [a] => (a, 0)
  | [] => (0, 0)

/-- The checksum of a key and nospam. -/
def checksumOf (k : PublicKey) (nospam : UInt32) : UInt16 :=
  let (hi, lo) := foldPairs (k.bytes ++ beBytes32 nospam)
  hi.toUInt16 * 256 + lo.toUInt16

/-- A friend address: key, nospam and checksum. -/
structure Address where
  key : PublicKey
  nospam : UInt32
  checksum : UInt16
deriving DecidableEq

/-- Why a text or byte string is no address. -/
inductive AddressError where
  | length (expected actual : Nat)
  | hex (e : Text.HexError)
  | checksum
deriving DecidableEq

/-- The sentence that names an address error. -/
def AddressError.message : AddressError → String
  | .length e a => s!"Address is unexpected length: expected {e} characters, but got {a}"
  | .hex e => "Address contains non-hex characters: " ++ e.message
  | .checksum => "Address checksum mismatch"

/-- The error's sentence, then those of the errors it stems from: a hex error stems from the
digit reader's. -/
def AddressError.chain (e : AddressError) : List String :=
  e.message :: (match e with
    | .hex h => [h.message]
    | _ => [])

namespace Address

/-- The address of a key and nospam, with its checksum computed. -/
def new (k : PublicKey) (nospam : UInt32) : Address := ⟨k, nospam, checksumOf k nospam⟩

/-- The 38 bytes of an address. -/
def toBytes (a : Address) : List UInt8 :=
  a.key.bytes ++ beBytes32 a.nospam ++ [(a.checksum >>> 8).toUInt8, a.checksum.toUInt8]

/-- The address in upper-case hex, 76 digits. -/
def hex (a : Address) : String := Text.hexOf true a.toBytes

/-- The address as it is shown in a structure. -/
def debug (a : Address) : String :=
  s!"Address \x7b public_key: {a.key.debug}, nospam: {a.nospam}, checksum: {a.checksum} \x7d"

/-- The address that 38 bytes spell; a wrong length is reported in hex digits. -/
def ofBytes (bs : List UInt8) : Except AddressError Address :=
  if h : bs.length = 38 then
    let key : PublicKey := ⟨bs.take 32, by simp [h]⟩
    let a := new key (ofBeBytes ((bs.drop 32).take 4)).toUInt32
    if a.checksum.toNat == ofBeBytes (bs.drop 36) then .ok a else .error .checksum
  else .error (.length 76 (bs.length * 2))

/-- Reads an address text: blanks around it are dropped, its length is counted in bytes. -/
def parse (s : String) : Except AddressError Address :=
  let t := Text.trimBlank s
  if t.utf8ByteSize != 76 then .error (.length 76 t.utf8ByteSize)
  else match Text.readHex t with
    | .error e => .error (.hex e)
    | .ok bs => ofBytes bs

end Address

end Courier
