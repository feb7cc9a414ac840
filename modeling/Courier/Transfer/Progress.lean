-- Progress of one transfer: a high-water mark of bytes confirmed from the start.

namespace Courier

/-- The largest 64-bit number, 2^64 - 1. -/
def u64Max : Nat := 18446744073709551615

/-- Addition that stops at the largest 64-bit number. -/
def satAdd (a b : Nat) : Nat := min (a + b) u64Max

/-- Bytes confirmed of a transfer of `total` bytes. -/
structure Progress where
  total : Nat
  mark : Nat := 0
deriving DecidableEq, Repr

namespace Progress

/-- Confirms the bytes `[offset, offset + length)`. -/
def update (p : Progress) (offset length : Nat) : Progress :=
  let stop := satAdd offset length
  if offset ≤ p.mark && p.mark < stop then { p with mark := stop }
  else if p.mark < offset then { p with mark := stop }
  else p

/-- Every byte is confirmed. -/
def isComplete (p : Progress) : Bool := p.total ≤ p.mark

/-- The share confirmed, between 0 and 1; an empty transfer counts as done. -/
def fraction (p : Progress) : Float :=
  if p.total == 0 then 1.0
  else Float.ofNat (min p.mark p.total) / Float.ofNat p.total

end Progress

end Courier
