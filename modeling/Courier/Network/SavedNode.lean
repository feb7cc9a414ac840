-- The saved state of a node, written as indented JSON and read back with the first fault in the text
-- deciding the message.
import Courier.Json.Reader
import Courier.Json.Schema
import Courier.Address

namespace Courier

/-- A node's saved state. -/
structure SavedNode where
  key : PublicKey
  nospam : UInt32
  name : String
  friends : List PublicKey

namespace SavedNode

/-- A key as a list of byte values. -/
def keyJson (k : PublicKey) : Json := .arr (k.bytes.map fun b => .nat b.toNat)

/-- The state as a JSON object, fields in their order. -/
def toJson (s : SavedNode) : Json :=
  .obj [("public_key", keyJson s.key), ("nospam", .nat s.nospam.toNat), ("name", .str s.name),
    ("friends", .arr (s.friends.map keyJson))]

/-- The state as it is saved: indented JSON. -/
def text (s : SavedNode) : String := s.toJson.pretty 0

end SavedNode

namespace Json.Cursor

/-- The message for the value ahead when another shape was expected; the value is read first. -/
def wrongAhead (c : Cursor) (expected : String) : Located :=
  let said (j : Json) (c : Cursor) : Located := c.fail (j.invalidType expected)
  match c.peek? with
  | some 110 => match keyword c.next "ull".toList with
    | .ok c => said .null c
    | .error e => e
  | some 116 => match keyword c.next "rue".toList with
    | .ok c => said (.bool true) c
    | .error e => e
  | some 102 => match keyword c.next "alse".toList with
    | .ok c => said (.bool false) c
    | .error e => e
  | some 34 => match string c with
    | .ok (s, c) => said (.str s) c
    | .error e => e
  | some 91 => said (.arr []) c
  | some 123 => said (.obj []) c
  | some b =>
    if b == 45 || (48 ≤ b && b ≤ 57) then
      match number c with
      | .ok (j, c) => said j c
      | .error e => e
    else c.failAhead Fault.expectedValue.message
  | none => c.failAhead Fault.eofValue.message

/-- Reads a whole number from `0` to `max`, named `what` in messages. -/
def unsignedAt (what : String) (max : Nat) (c : Cursor) : Except Located (Nat × Cursor) :=
  let c := c.skipBlank
  match c.peek? with
  | none => .error (c.failAhead Fault.eofValue.message)
  | some b =>
    if b == 45 || (48 ≤ b && b ≤ 57) then
      match number c with
      | .error e => .error e
      | .ok (j, c) => match j.toUnsigned what max with
        | .ok n => .ok (n, c)
        | .error m => .error (c.fail m)
    else .error (c.wrongAhead what)

/-- Reads a string. -/
def stringAt (c : Cursor) : Except Located (String × Cursor) :=
  let c := c.skipBlank
  match c.peek? with
  | none => .error (c.failAhead Fault.eofValue.message)
  | some 34 => string c
  | some _ => .error (c.wrongAhead "a string")

/-- Whether another item of a list follows: blanks, then a comma unless it is the first item. -/
def nextItem (c : Cursor) (first : Bool) : Except Located (Option Cursor) :=
  let c := c.skipBlank
  match c.peek? with
  | none => .error (c.failAhead Fault.eofList.message)
  | some 93 => .ok none
  | some 44 =>
    if first then .ok (some c)
    else
      let c := c.next.skipBlank
      match c.peek? with
      | some 93 => .error (c.failAhead Fault.trailingComma.message)
      | none => .error (c.failAhead Fault.eofValue.message)
      | some _ => .ok (some c)
  | some _ => if first then .ok (some c) else .error (c.failAhead Fault.expectedListCommaOrEnd.message)

/-- Checks the end of a list after its last expected item. -/
def endList (c : Cursor) : Except Located Cursor :=
  let c := c.skipBlank
  match c.peek? with
  | some 93 => .ok c.next
  | some 44 =>
    let c := c.next.skipBlank
    if c.peek? == some 93 then .error (c.failAhead Fault.trailingComma.message)
    else .error (c.failAhead Fault.trailingCharacters.message)
  | some _ => .error (c.failAhead Fault.trailingCharacters.message)
  | none => .error (c.failAhead Fault.eofList.message)

/-- The place of an error found by a reader of a list once the list has ended: its closing
bracket counts as read. -/
def afterList (c : Cursor) (msg : String) : Located :=
  let c := c.skipBlank
  if c.peek? == some 93 then c.next.fail msg else c.fail msg

/-- Reads exactly `n` items with `item`, after the opening bracket. -/
def fixedItems (item : Cursor → Except Located (α × Cursor)) (expected : String) (total : Nat) :
    Nat → Cursor → List α → Except Located (List α × Cursor)
  | 0, c, acc => do
    let c ← endList c
    return (acc.reverse, c)
  | left + 1, c, acc => do
    match ← nextItem c acc.isEmpty with
    | none => throw (afterList c s!"invalid length {total - (left + 1)}, expected {expected}")
    | some c =>
      let (x, c) ← item c
      fixedItems item expected total left c (x :: acc)

/-- Reads the items of a list of any length with `item`, after the opening bracket. -/
def anyItems (item : Cursor → Except Located (α × Cursor)) :
    Nat → Cursor → List α → Except Located (List α × Cursor)
  | 0, c, _ => .error (c.fail "recursion limit exceeded")
  | fuel + 1, c, acc => do
    match ← nextItem c acc.isEmpty with
    | none => return (acc.reverse, c.skipBlank.next)
    | some c =>
      let (x, c) ← item c
      anyItems item fuel c (x :: acc)

/-- Reads a public key: a list of exactly 32 byte values. -/
def keyAt (c : Cursor) : Except Located (PublicKey × Cursor) :=
  let c := c.skipBlank
  match c.peek? with
  | none => .error (c.failAhead Fault.eofValue.message)
  | some 91 =>
    match fixedItems (unsignedAt "u8" 255) "an array of length 32" 32 32 c.next [] with
    | .error e => .error e
    | .ok (ns, c) =>
      match PublicKey.ofBytes? (ns.map Nat.toUInt8) with
      | some k => .ok (k, c)
      | none => .error (c.fail "invalid length")
  | some _ => .error (c.wrongAhead "an array of length 32")

/-- Reads a list of public keys. -/
def keysAt (c : Cursor) : Except Located (List PublicKey × Cursor) :=
  let c := c.skipBlank
  match c.peek? with
  | none => .error (c.failAhead Fault.eofValue.message)
  | some 91 => anyItems keyAt (c.bytes.size + 1) c.next []
  | some _ => .error (c.wrongAhead "a sequence")

end Json.Cursor

namespace SavedNode

open Json Json.Cursor

/-- The fields of a saved state read so far. -/
structure Partial where
  key : Option PublicKey := none
  nospam : Option UInt32 := none
  name : Option String := none
  friends : Option (List PublicKey) := none

/-- The field names, in order. -/
def fieldNames : List String := ["public_key", "nospam", "name", "friends"]

/-- Whether a field is set already. -/
def Partial.has (p : Partial) : String → Bool
  | "public_key" => p.key.isSome
  | "nospam" => p.nospam.isSome
  | "name" => p.name.isSome
  | "friends" => p.friends.isSome
  | _ => false

/-- Reads the value of one named field. -/
def readField (p : Partial) (k : String) (c : Cursor) : Except Located (Partial × Cursor) :=
  match k with
  | "public_key" => (keyAt c).map fun (v, c) => ({ p with key := some v }, c)
  | "nospam" => (unsignedAt "u32" (Nat.pow 2 32 - 1) c).map fun (v, c) => ({ p with nospam := some v.toUInt32 }, c)
  | "name" => (stringAt c).map fun (v, c) => ({ p with name := some v }, c)
  | "friends" => (keysAt c).map fun (v, c) => ({ p with friends := some v }, c)
  | _ => (c.value (c.bytes.size + 2)).map fun (_, c) => (p, c)

/-- The state once every field is read, or the first missing field. -/
def Partial.finish (p : Partial) : Except String SavedNode :=
  match p.key, p.nospam, p.name, p.friends with
  | some k, some n, some m, some f => .ok ⟨k, n, m, f⟩
  | none, _, _, _ => .error "missing field `public_key`"
  | _, none, _, _ => .error "missing field `nospam`"
  | _, _, none, _ => .error "missing field `name`"
  | _, _, _, none => .error "missing field `friends`"

/-- The place of an error found by the reader of an object once it stopped: a closing brace
ahead counts as read. -/
def afterObject (c : Cursor) (msg : String) : Located :=
  let c := c.skipBlank
  if c.peek? == some 125 then c.next.fail msg else c.fail msg

/-- Reads the fields of an object after its opening brace. -/
def fields : Nat → Cursor → Bool → Partial → Except Located (SavedNode × Cursor)
  | 0, c, _, _ => .error (c.fail "recursion limit exceeded")
  | fuel + 1, c, first, p => do
    let c := c.skipBlank
    let keyAt? : Option Cursor ← match c.peek? with
      | some 125 => pure none
      | some 44 => if first then throw (c.failAhead Fault.keyMustBeString.message) else pure (some c.next.skipBlank)
      | some _ => if first then pure (some c) else throw (c.failAhead Fault.expectedObjectCommaOrEnd.message)
      | none => throw (c.failAhead Fault.eofObject.message)
    match keyAt? with
    | none => match p.finish with
      | .ok s => return (s, c.next)
      | .error m => throw (c.next.fail m)
    | some c =>
      match c.peek? with
      | some 34 =>
        let (k, c) ← string c
        if fieldNames.contains k && p.has k then throw (afterObject c s!"duplicate field `{k}`")
        let c := c.skipBlank
        match c.peek? with
        | some 58 =>
          let (p, c) ← readField p k c.next
          fields fuel c false p
        | some _ => throw (c.failAhead Fault.expectedColon.message)
        | none => throw (c.failAhead Fault.eofObject.message)
      | some 125 => throw (c.failAhead Fault.trailingComma.message)
      | some _ => throw (c.failAhead Fault.keyMustBeString.message)
      | none => throw (c.failAhead Fault.eofValue.message)

/-- Reads the four values of a state written as a list, after the opening bracket. -/
def items (c : Cursor) : Except Located (SavedNode × Cursor) := do
  let expected := "struct SavedNode with 4 elements"
  let step (i : Nat) (c : Cursor) : Except Located Cursor := do
    match ← nextItem c (i == 0) with
    | some c => pure c
    | none => throw (afterList c s!"invalid length {i}, expected {expected}")
  let c ← step 0 c
  let (k, c) ← keyAt c
  let c ← step 1 c
  let (n, c) ← unsignedAt "u32" (Nat.pow 2 32 - 1) c
  let c ← step 2 c
  let (m, c) ← stringAt c
  let c ← step 3 c
  let (f, c) ← keysAt c
  let c ← endList c
  return (⟨k, n.toUInt32, m, f⟩, c)

/-- Reads a saved state from its text; an error names its place in the text. -/
def read (text : String) : Except Located SavedNode := do
  let c := (Cursor.ofString text).skipBlank
  let (s, c) ← match c.peek? with
    | some 123 => fields (c.bytes.size + 2) c.next true {}
    | some 91 => items c.next
    | some _ => throw (c.wrongAhead "struct SavedNode")
    | none => throw (c.failAhead Fault.eofValue.message)
  c.finish
  return s

end SavedNode

end Courier
