-- Shortest decimal text of a double: the fewest significant digits whose decimal rounds back to it,
-- the nearer of two such decimals, and a tie to the even last digit.

namespace Courier.Decimal

/-- A finite double taken apart: its sign, and `mant * 2^exp` for its size. -/
structure Binary where
  neg : Bool
  mant : Nat
  exp : Int
  /-- The next smaller double is half as far away as the next larger one. -/
  narrowBelow : Bool
deriving Repr

/-- The kind of a double: a finite value, an infinity or not a number. -/
inductive FloatKind where
  | finite (b : Binary)
  | infinite (neg : Bool)
  | nan

/-- Reads the fields of the bit pattern of a double. -/
def Binary.classify (x : Float) : FloatKind :=
  let bits : Nat := x.toBits.toNat
  let neg : Bool := bits / Nat.pow 2 63 % 2 == 1
  let e : Nat := bits / Nat.pow 2 52 % 2048
  let f : Nat := bits % Nat.pow 2 52
  if e == 2047 then
    if f == 0 then .infinite neg else .nan
  else if e == 0 then .finite ⟨neg, f, -1074, false⟩
  else .finite ⟨neg, f + Nat.pow 2 52, Int.ofNat e - 1075, f == 0 && e > 1⟩

/-- A power of two or ten with an integer exponent, as a fraction `num / den`. -/
def scaled (n : Nat) (e2 : Int) (p : Int) : Nat × Nat :=
  (n * Nat.pow 2 e2.toNat * Nat.pow 10 (-p).toNat, Nat.pow 2 (-e2).toNat * Nat.pow 10 p.toNat)

/-- The integers `d` with `d * 10^p` inside the interval `[lo, hi] * 2^e2` (open ends unless
`closed`). -/
def gridRange (lo hi e2 p : Int) (closed : Bool) : Nat × Nat :=
  let (nl, den) := scaled lo.toNat e2 p
  let (nh, _) := scaled hi.toNat e2 p
  let first := if closed then (nl + den - 1) / den else nl / den + 1
  let last := if closed then nh / den else (nh - 1) / den
  (first, last)

/-- Of the grid points `first..last`, the one nearest to `num / den`, a tie going to the even one. -/
def nearestOnGrid (num den first last : Nat) : Nat :=
  let q := num / den
  let r := num % den
  let below := q
  let above := q + 1
  let inRange (d : Nat) : Bool := first ≤ d && d ≤ last
  if !inRange below then above
  else if !inRange above then below
  else if 2 * r < den then below
  else if 2 * r > den then above
  else if below % 2 == 0 then below else above

/-- An upper bound for the decimal exponent of the largest digit of `n * 2^e2`. -/
def exponentBound (n : Nat) (e2 : Int) : Int :=
  ((Nat.log2 n + 1 : Nat) + e2) * 30103 / 100000 + 1

/-- Searches the decimal grids from coarse to fine for the first that meets the interval. -/
def searchGrid (v lo hi e2 : Int) (closed : Bool) : Nat → Int → Nat × Int
  | 0, p => (0, p)
  | fuel + 1, p =>
    let (first, last) := gridRange lo hi e2 p closed
    if first ≤ last then
      let (nv, den) := scaled v.toNat e2 p
      (nearestOnGrid nv den first last, p)
    else searchGrid v lo hi e2 closed fuel (p - 1)

/-- Digits and exponent `(d, p)` of the shortest decimal `d * 10^p` that reads back as `b`. -/
def shortestDigits (b : Binary) : Nat × Int :=
  let e2 := b.exp - 2
  let v : Int := 4 * b.mant
  let hi := v + 2
  let lo := if b.narrowBelow then v - 1 else v - 2
  searchGrid v lo hi e2 (b.mant % 2 == 0) 40 (exponentBound hi.toNat e2)

/-- How a float is laid out once its digits are known. Between the two bounds of the decimal
point's place the text is positional, outside them scientific; `none` means no bound. -/
structure FloatStyle where
  /-- The point's place must be above this for positional text. -/
  sciAtOrBelow : Option Int
  /-- The point's place must be at most this for positional text. -/
  sciAbove : Option Int

/-- Writes `digits * 10^p` by the style, keeping a `.0` on whole numbers. -/
def FloatStyle.layout (s : FloatStyle) (digits : String) (p : Int) : String :=
  let n : Int := digits.length
  let kk := n + p
  let low := match s.sciAtOrBelow with | some b => b < kk | none => true
  let high := match s.sciAbove with | some b => kk ≤ b | none => true
  let zeros (k : Int) : String := String.ofList (List.replicate k.toNat '0')
  if low && high then
    if 0 ≤ p then digits ++ zeros p ++ ".0"
    else if 0 < kk then
      String.ofList (digits.toList.take kk.toNat) ++ "." ++ String.ofList (digits.toList.drop kk.toNat)
    else "0." ++ zeros (-kk) ++ digits
  else
    let exp := toString (kk - 1)
    match digits.toList with
    | [d] => String.ofList [d] ++ "e" ++ exp
    | d :: rest => String.ofList [d] ++ "." ++ String.ofList rest ++ "e" ++ exp
    | [] => "0e0"

/-- Writes a double in the style: shortest digits, `0.0` for zero, a minus sign for a negative
value, and the given words for infinity and for not a number. -/
def FloatStyle.render (s : FloatStyle) (inf nan : String) (x : Float) : String :=
  match Binary.classify x with
  | .nan => nan
  | .infinite neg => (if neg then "-" else "") ++ inf
  | .finite b =>
    let sign := if b.neg then "-" else ""
    if b.mant == 0 then sign ++ "0.0"
    else
      let (d, p) := shortestDigits b
      sign ++ s.layout (toString d) p

/-- Data text: positional while the point stands within 16 places of the first digit and not more
than five zeros after it, scientific otherwise. -/
def FloatStyle.data : FloatStyle := ⟨some (-5), some 16⟩

/-- Reading text: always positional. -/
def FloatStyle.plain : FloatStyle := ⟨none, none⟩

end Courier.Decimal
