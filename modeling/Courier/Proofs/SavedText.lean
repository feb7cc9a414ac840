-- The saved text of a node reads back as its state: each reader of a part reads what the writer
-- writes for it and stops right after it.
import Courier.Network.SavedNode
import Courier.Proofs.AddressText
import Mathlib

namespace Courier

namespace Json.Cursor

/-! ## The bytes ahead of a cursor -/

/-- The bytes from the cursor on. -/
def rest (c : Cursor) : List UInt8 := c.bytes.toList.drop c.pos

/-- The cursor `n` bytes further. -/
def skip (c : Cursor) (n : Nat) : Cursor := { c with pos := c.pos + n }

@[simp] theorem skip_bytes (c : Cursor) (n : Nat) : (c.skip n).bytes = c.bytes := rfl

@[simp] theorem skip_skip (c : Cursor) (m n : Nat) : (c.skip m).skip n = c.skip (m + n) := by
  simp [skip, Nat.add_assoc]

@[simp] theorem skip_zero (c : Cursor) : c.skip 0 = c := rfl

theorem next_eq_skip (c : Cursor) : c.next = c.skip 1 := rfl

@[simp] theorem rest_skip (c : Cursor) (n : Nat) : (c.skip n).rest = c.rest.drop n := by
  simp [rest, skip, List.drop_drop, Nat.add_comm]

theorem length_rest (c : Cursor) : c.rest.length = c.bytes.size - c.pos := by
  simp [rest, Text.byteArray_toList]

theorem peek?_eq_head? (c : Cursor) : c.peek? = c.rest.head? := by
  unfold peek? rest
  rw [List.head?_drop, Text.byteArray_toList]
  split
  · rename_i h
    simp [ByteArray.get, h]
  · rename_i h
    simp [h]

theorem peek?_of_rest {c : Cursor} {b : UInt8} {l : List UInt8} (h : c.rest = b :: l) :
    c.peek? = some b := by
  rw [peek?_eq_head?, h]
  rfl

theorem rest_next {c : Cursor} {b : UInt8} {l : List UInt8} (h : c.rest = b :: l) :
    c.next.rest = l := by
  rw [next_eq_skip, rest_skip, h]
  rfl

theorem peek?_skip {c : Cursor} {l more : List UInt8} {b : UInt8} (h : c.rest = l ++ b :: more) :
    (c.skip l.length).peek? = some b := by
  rw [peek?_eq_head?, rest_skip, h, List.drop_left]
  rfl

/-! ## Blanks -/

/-- The bytes that reading skips between parts: space, tab, line feed and carriage return. -/
def blankByte (b : UInt8) : Bool := b == 32 || b == 9 || b == 10 || b == 13

theorem skipBlank_go (c : Cursor) (n : Nat) :
    skipBlank.go c n = c.skip (min n (c.rest.takeWhile blankByte).length) := by
  induction n generalizing c with
  | zero => simp [skipBlank.go]
  | succ n ih =>
    unfold skipBlank.go
    rw [peek?_eq_head?]
    cases hr : c.rest with
    | nil => simp
    | cons b l =>
      -- a blank is passed and the rest skipped from the next byte; anything else stops
      by_cases hb : blankByte b = true
      · have hb' : (b == 32 || b == 9 || b == 10 || b == 13) = true := hb
        simp only [List.head?_cons, hb', if_true]
        rw [ih, rest_next hr, next_eq_skip, skip_skip, List.takeWhile_cons_of_pos hb,
          List.length_cons]
        congr 1
        omega
      · have hb' : (b == 32 || b == 9 || b == 10 || b == 13) = false := Bool.eq_false_iff.2 hb
        simp only [List.head?_cons, hb', Bool.false_eq_true, if_false,
          List.takeWhile_cons_of_neg hb, List.length_nil, Nat.min_zero, skip_zero]

theorem skipBlank_eq (c : Cursor) : c.skipBlank = c.skip (c.rest.takeWhile blankByte).length := by
  rw [skipBlank, skipBlank_go, ← length_rest]
  congr 1
  exact Nat.min_eq_right (List.takeWhile_prefix _).length_le

theorem skipBlank_of_rest {c : Cursor} {bl tail : List UInt8} (h : c.rest = bl ++ tail)
    (hbl : ∀ b ∈ bl, blankByte b = true) (htail : ∀ b ∈ tail.head?, blankByte b = false) :
    c.skipBlank = c.skip bl.length := by
  rw [skipBlank_eq, h, List.takeWhile_append_of_pos hbl]
  cases tail with
  | nil => simp
  | cons t ts => simp [htail t rfl]

theorem skipBlank_of_head {c : Cursor} {b : UInt8} {more : List UInt8} (h : c.rest = b :: more)
    (hb : blankByte b = false) : c.skipBlank = c :=
  skipBlank_of_rest (show c.rest = [] ++ b :: more from h) (by simp) (by intro x hx; cases hx; exact hb)

/-- Blanks before a part that starts with no blank are passed, and the cursor stands at the part. -/
theorem skipBlank_before {c : Cursor} {bl part tail more : List UInt8} {b : UInt8}
    (h : c.rest = bl ++ part ++ tail) (hbl : ∀ x ∈ bl, blankByte x = true) (hpart : part = b :: more)
    (hb : blankByte b = false) :
    c.skipBlank = c.skip bl.length ∧ (c.skip bl.length).rest = part ++ tail := by
  refine ⟨skipBlank_of_rest (by rw [h, List.append_assoc]) hbl ?_, ?_⟩
  · rw [hpart]
    intro x hx
    cases hx
    exact hb
  · rw [rest_skip, h, List.append_assoc, List.drop_left]

/-! ## Whole numbers -/

/-- The bytes of the decimal digits. -/
def digitByte (b : UInt8) : Bool := 48 ≤ b && b ≤ 57

theorem digits_go {c : Cursor} {ds tail : List UInt8} (h : c.rest = ds ++ tail)
    (hds : ∀ b ∈ ds, digitByte b = true) (htail : ∀ b ∈ tail.head?, digitByte b = false)
    (acc : List Nat) {n : Nat} (hn : ds.length ≤ n) :
    digits.go c acc n = (acc.reverse ++ ds.map (fun b => b.toNat - 48), c.skip ds.length) := by
  induction ds generalizing c acc n with
  | nil =>
    cases n with
    | zero => simp [digits.go]
    | succ n =>
      unfold digits.go
      rw [peek?_eq_head?, h]
      cases tail with
      | nil => simp
      | cons t ts =>
        have ht : (48 ≤ t && t ≤ 57) = false := htail t rfl
        simp [ht]
  | cons d ds ih =>
    obtain ⟨n, rfl⟩ : ∃ m, n = m + 1 := ⟨n - 1, by simp at hn; omega⟩
    have hd : (48 ≤ d && d ≤ 57) = true := hds d List.mem_cons_self
    unfold digits.go
    rw [peek?_of_rest h]
    simp only [hd, if_true]
    rw [ih (rest_next h) (fun b hb => hds b (List.mem_cons_of_mem _ hb)) _
      (by simp at hn; omega), next_eq_skip, skip_skip]
    simp [Nat.add_comm]

theorem digits_of_rest {c : Cursor} {ds tail : List UInt8} (h : c.rest = ds ++ tail)
    (hds : ∀ b ∈ ds, digitByte b = true) (htail : ∀ b ∈ tail.head?, digitByte b = false) :
    digits c = (ds.map (fun b => b.toNat - 48), c.skip ds.length) := by
  have hlen : ds.length ≤ c.bytes.size - c.pos := by
    rw [← length_rest, h, List.length_append]
    omega
  simp [digits, digits_go h hds htail [] hlen]

theorem digitsValue_append (ds : List Nat) (d : Nat) :
    digitsValue (ds ++ [d]) = digitsValue ds * 10 + d := by
  simp [digitsValue, List.foldl_append]

theorem digitsValue_toDigits (n : Nat) :
    digitsValue ((Nat.toDigits 10 n).map fun ch => ch.toNat - 48) = n := by
  induction n using Nat.strong_induction_on with
  | _ n ih =>
    rw [Nat.toDigits_eq_if (by norm_num)]
    split
    · rename_i h
      simp [digitsValue, Nat.toNat_digitChar_sub_48_of_lt_ten h]
    · rename_i h
      rw [List.map_append, List.map_singleton, digitsValue_append, ih (n / 10) (by omega),
        Nat.toNat_digitChar_sub_48_of_lt_ten (Nat.mod_lt n (by norm_num))]
      omega

theorem toNat_of_mem_toDigits {n : Nat} {ch : Char} (h : ch ∈ Nat.toDigits 10 n) :
    48 ≤ ch.toNat ∧ ch.toNat ≤ 57 := by
  have hd := Nat.isDigit_of_mem_toDigits (by norm_num) (by norm_num) h
  simp only [Char.isDigit, Bool.and_eq_true, decide_eq_true_eq] at hd
  simp only [Char.toNat, UInt32.le_iff_toNat_le] at hd ⊢
  exact ⟨hd.1, hd.2⟩

theorem repr_bytes (n : Nat) :
    (Nat.repr n).toUTF8.toList = (Nat.toDigits 10 n).map fun ch => ch.toNat.toUInt8 := by
  rw [Text.toUTF8_toList, Nat.toList_repr, Text.flatMap_utf8EncodeChar_of_lt]
  intro ch hch
  have := toNat_of_mem_toDigits hch
  omega

theorem digitByte_of_mem_repr {n : Nat} {b : UInt8} (hb : b ∈ (Nat.repr n).toUTF8.toList) :
    digitByte b = true := by
  rw [repr_bytes] at hb
  obtain ⟨ch, hch, rfl⟩ := List.mem_map.1 hb
  have := toNat_of_mem_toDigits hch
  simp [digitByte, UInt8.le_iff_toNat_le]
  omega

theorem blankByte_of_digitByte {b : UInt8} (h : digitByte b = true) : blankByte b = false := by
  simp only [digitByte, Bool.and_eq_true, decide_eq_true_eq, UInt8.le_iff_toNat_le] at h
  simp only [blankByte, Bool.or_eq_false_iff, beq_eq_false_iff_ne, ne_eq]
  refine ⟨⟨⟨?_, ?_⟩, ?_⟩, ?_⟩ <;> intro hb <;> subst hb <;> simp at h

theorem toDigits_head {n : Nat} (hn : 0 < n) :
    ∃ d rest, Nat.toDigits 10 n = Nat.digitChar d :: rest ∧ 0 < d ∧ d < 10 := by
  induction n using Nat.strong_induction_on with
  | _ n ih =>
    rw [Nat.toDigits_eq_if (by norm_num)]
    split
    · rename_i h
      exact ⟨n, [], rfl, hn, h⟩
    · rename_i h
      obtain ⟨d, rest, hr, hd⟩ := ih (n / 10) (by omega) (by omega)
      exact ⟨d, rest ++ [Nat.digitChar (n % 10)], by rw [hr, List.cons_append], hd⟩

theorem number_of_rest {c : Cursor} {n : Nat} {tail : List UInt8} (hn : n < Nat.pow 2 64)
    (h : c.rest = (Nat.repr n).toUTF8.toList ++ tail)
    (htail : ∀ b ∈ tail.head?, digitByte b = false ∧ b ≠ 46 ∧ b ≠ 101 ∧ b ≠ 69) :
    number c = .ok (.int n, c.skip (Nat.repr n).toUTF8.toList.length) := by
  rw [repr_bytes] at h ⊢
  generalize hds : (Nat.toDigits 10 n).map (fun ch => ch.toNat.toUInt8) = ds at h ⊢
  -- what follows the digits is no part of a number
  have hafter : (c.skip ds.length).peek? = tail.head? := by
    rw [peek?_eq_head?, rest_skip, h, List.drop_left]
  have hstop : tail.head? ≠ some 46 ∧ tail.head? ≠ some 101 ∧ tail.head? ≠ some 69 := by
    cases tail with
    | nil => simp
    | cons t ts =>
      obtain ⟨-, h46, h101, h69⟩ := htail t rfl
      simp [h46, h101, h69]
  unfold number
  rcases Nat.eq_zero_or_pos n with rfl | hpos
  · -- zero is the one digit 0, and no digit may follow it
    simp only [Nat.toDigits_zero, List.map_cons, List.map_nil] at hds
    subst hds
    have hpeek : c.peek? = some 48 := peek?_of_rest h
    have hnext : (c.skip 1).peek? = tail.head? := hafter
    have hdigit : ¬ (48 ≤ tail.head?.getD 0 ∧ tail.head?.getD 0 ≤ 57) := by
      cases tail with
      | nil => decide
      | cons t ts => simpa [digitByte] using (htail t rfl).1
    simp [hpeek, hnext, hdigit, next_eq_skip, hstop, numberValue, bind, Except.bind]
  · obtain ⟨d, rest, hdig, hd0, hd10⟩ := toDigits_head hpos
    have hfirst : ds = (Nat.digitChar d).toNat.toUInt8 :: rest.map (fun ch => ch.toNat.toUInt8) := by
      rw [← hds, hdig, List.map_cons]
    have hpeek : c.peek? = some (Nat.digitChar d).toNat.toUInt8 :=
      peek?_of_rest (by rw [h, hfirst, List.cons_append])
    have hb₀ : ((Nat.digitChar d).toNat.toUInt8).toNat = 48 + d := by
      rw [Nat.toNat_digitChar_of_lt_ten hd10]
      simp
      omega
    have hdsd : ∀ b ∈ ds, digitByte b = true := fun b hb =>
      digitByte_of_mem_repr (by rw [repr_bytes, hds]; exact hb)
    have htaild : ∀ b ∈ tail.head?, digitByte b = false := fun b hb => (htail b hb).1
    have hvalue : digitsValue (ds.map fun b => b.toNat - 48) = n := by
      rw [← hds, List.map_map]
      conv => rhs; rw [← digitsValue_toDigits n]
      congr 1
      apply List.map_congr_left
      intro ch hch
      have := toNat_of_mem_toDigits hch
      simp
      omega
    generalize (Nat.digitChar d).toNat.toUInt8 = b₀ at hpeek hb₀
    have hb45 : b₀ ≠ 45 := fun h => by
      rw [h] at hb₀
      simp at hb₀
      omega
    have hrange : 49 ≤ b₀ ∧ b₀ ≤ 57 := by
      simp only [UInt8.le_iff_toNat_le, hb₀]
      simp
      omega
    simp [hpeek, hb45]
    -- the match on the first byte: a number does not start with 0 unless it is 0
    split
    · rename_i heq
      cases heq
    · rename_i heq
      simp only [Option.some.injEq] at heq
      rw [heq] at hb₀
      simp at hb₀
      omega
    · rename_i b _ heq
      simp only [Option.some.injEq] at heq
      subst heq
      simp [hrange, digits_of_rest h hdsd htaild, hvalue, hafter, hstop, numberValue, bind,
        Except.bind, hn]

theorem repr_bytes_cons (n : Nat) :
    ∃ d ds, (Nat.repr n).toUTF8.toList = d :: ds ∧ digitByte d = true := by
  obtain ⟨d, ds, hd⟩ := List.exists_cons_of_ne_nil (show (Nat.repr n).toUTF8.toList ≠ [] by
    rw [repr_bytes]
    simp)
  exact ⟨d, ds, hd, digitByte_of_mem_repr (by rw [hd]; exact List.mem_cons_self)⟩

/-- A whole number up to `max`, after blanks, is read with its value. -/
theorem unsignedAt_of_rest {c : Cursor} {bl tail : List UInt8} {n max : Nat} (what : String)
    (hn : n ≤ max) (hmax : max < Nat.pow 2 64)
    (h : c.rest = bl ++ (Nat.repr n).toUTF8.toList ++ tail) (hbl : ∀ b ∈ bl, blankByte b = true)
    (htail : ∀ b ∈ tail.head?, digitByte b = false ∧ b ≠ 46 ∧ b ≠ 101 ∧ b ≠ 69) :
    unsignedAt what max c = .ok (n, c.skip (bl.length + (Nat.repr n).toUTF8.toList.length)) := by
  obtain ⟨d, ds, hd, hdigit⟩ := repr_bytes_cons n
  obtain ⟨hskip, hrest⟩ := skipBlank_before h hbl hd (blankByte_of_digitByte hdigit)
  have hpeek : (c.skip bl.length).peek? = some d := peek?_of_rest (by rw [hrest, hd, List.cons_append])
  have hstart : (d == 45 || (48 ≤ d && 57 ≥ d)) = true := by
    simp only [digitByte] at hdigit
    simp [hdigit]
  unfold unsignedAt
  simp only [hskip, hpeek]
  rw [if_pos (by simpa using hstart), number_of_rest (Nat.lt_of_le_of_lt hn hmax) hrest htail]
  simp [Json.toUnsigned, hn, skip_skip]

/-! ## Strings -/

theorem stringBody_plain {c : Cursor} {b : UInt8} {more : List UInt8} (h : c.rest = b :: more)
    (hb : 32 ≤ b.toNat) (h34 : b ≠ 34) (h92 : b ≠ 92) (fuel : Nat) (acc : List UInt8) :
    stringBody c (fuel + 1) acc = stringBody c.next fuel (b :: acc) := by
  have hlt : ¬ b < 32 := by
    rw [UInt8.lt_iff_toNat_lt]
    simp
    omega
  rw [stringBody, peek?_of_rest h]
  split
  · rename_i heq
    cases heq
  · rename_i heq
    exact absurd (Option.some.inj heq) h34
  · rename_i heq
    exact absurd (Option.some.inj heq) h92
  · rename_i b' _ _ heq
    cases Option.some.inj heq
    rw [if_neg hlt]

theorem stringBody_plains {bs more : List UInt8}
    (hbs : ∀ b ∈ bs, 32 ≤ b.toNat ∧ b ≠ 34 ∧ b ≠ 92) :
    ∀ (c : Cursor), c.rest = bs ++ more → ∀ (fuel : Nat) (acc : List UInt8),
      stringBody c (fuel + bs.length) acc = stringBody (c.skip bs.length) fuel (bs.reverse ++ acc) := by
  induction bs with
  | nil => intro c _ fuel acc; rfl
  | cons b bs ih =>
    intro c h fuel acc
    obtain ⟨hb, h34, h92⟩ := hbs b List.mem_cons_self
    rw [List.length_cons, ← Nat.add_assoc, stringBody_plain h hb h34 h92,
      ih (fun x hx => hbs x (List.mem_cons_of_mem _ hx)) c.next (rest_next h), next_eq_skip,
      skip_skip, Nat.add_comm 1]
    simp

theorem stringBody_escape {c : Cursor} {e b : UInt8} {more : List UInt8} (h : c.rest = 92 :: e :: more)
    (he : (e, b) ∈ [((34 : UInt8), (34 : UInt8)), (92, 92), (98, 8), (102, 12), (110, 10), (114, 13),
      (116, 9)]) (fuel : Nat) (acc : List UInt8) :
    stringBody c (fuel + 1) acc = stringBody (c.skip 2) fuel (b :: acc) := by
  have hnext : (c.skip 1).peek? = some e := peek?_of_rest (rest_next h)
  simp only [List.mem_cons, Prod.mk.injEq, List.not_mem_nil, or_false] at he
  rw [stringBody, peek?_of_rest h]
  simp only [next_eq_skip, hnext, skip_skip]
  rcases he with ⟨rfl, rfl⟩ | ⟨rfl, rfl⟩ | ⟨rfl, rfl⟩ | ⟨rfl, rfl⟩ | ⟨rfl, rfl⟩ | ⟨rfl, rfl⟩ |
    ⟨rfl, rfl⟩ <;> rfl

theorem hex4_of_rest {c : Cursor} {h₁ h₂ h₃ h₄ : UInt8} {v₁ v₂ v₃ v₄ : Nat} {more : List UInt8}
    (h : c.rest = h₁ :: h₂ :: h₃ :: h₄ :: more) (hv₁ : hexValue h₁ = some v₁)
    (hv₂ : hexValue h₂ = some v₂) (hv₃ : hexValue h₃ = some v₃) (hv₄ : hexValue h₄ = some v₄) :
    hex4 c = .ok (((v₁ * 16 + v₂) * 16 + v₃) * 16 + v₄, c.skip 4) := by
  have h₂' : (c.skip 1).rest = h₂ :: h₃ :: h₄ :: more := by
    rw [rest_skip, h]
    rfl
  have h₃' : (c.skip 2).rest = h₃ :: h₄ :: more := by
    rw [rest_skip, h]
    rfl
  have h₄' : (c.skip 3).rest = h₄ :: more := by
    rw [rest_skip, h]
    rfl
  simp [hex4, List.foldlM, peek?_of_rest h, peek?_of_rest h₂', peek?_of_rest h₃',
    peek?_of_rest h₄', hv₁, hv₂, hv₃, hv₄, next_eq_skip, bind, Except.bind, pure, Except.pure]

theorem stringBody_unicode {c : Cursor} {d₁ d₂ : UInt8} {v₁ v₂ : Nat} {more : List UInt8}
    (h : c.rest = 92 :: 117 :: 48 :: 48 :: d₁ :: d₂ :: more) (hv₁ : hexValue d₁ = some v₁)
    (hv₂ : hexValue d₂ = some v₂) (hsmall : v₁ * 16 + v₂ < 55296) (fuel : Nat) (acc : List UInt8) :
    stringBody c (fuel + 1) acc = stringBody (c.skip 6) fuel ((utf8Of (v₁ * 16 + v₂)).reverse ++ acc) := by
  have hnext : (c.skip 1).peek? = some 117 := peek?_of_rest (rest_next h)
  have hdigits : (c.skip 2).rest = 48 :: 48 :: d₁ :: d₂ :: more := by
    rw [rest_skip, h]
    rfl
  have h48 : hexValue 48 = some 0 := by decide
  have hhex := hex4_of_rest hdigits h48 h48 hv₁ hv₂
  simp only [Nat.zero_mul, Nat.zero_add, skip_skip] at hhex
  rw [stringBody, peek?_of_rest h]
  simp only [next_eq_skip, hnext, skip_skip]
  simp only [hhex]
  -- a code point below the surrogates is neither half of a pair
  have hlow : ¬ (56320 ≤ v₁ * 16 + v₂ ∧ v₁ * 16 + v₂ < 57344) := by omega
  have hhigh : ¬ (55296 ≤ v₁ * 16 + v₂ ∧ v₁ * 16 + v₂ < 56320) := by omega
  simp [hlow, hhigh]

theorem stringBody_close {c : Cursor} {more : List UInt8} (h : c.rest = 34 :: more) {acc : List UInt8}
    {s : String} (hs : String.fromUTF8? (ByteArray.mk acc.reverse.toArray) = some s) (fuel : Nat) :
    stringBody c (fuel + 1) acc = .ok (s, c.next) := by
  rw [stringBody, peek?_of_rest h]
  simp [hs]

theorem le_of_mem_utf8EncodeChar {ch : Char} (h : 128 ≤ ch.toNat) :
    ∀ b ∈ String.utf8EncodeChar ch, 128 ≤ b.toNat := by
  have hv : ¬ ch.val.toNat ≤ 127 := by
    rw [Char.toNat_val]
    omega
  unfold String.utf8EncodeChar
  simp only [hv, if_false]
  split
  · simp [UInt8.toNat_ofNat']
    omega
  · split
    · simp [UInt8.toNat_ofNat']
      omega
    · simp [UInt8.toNat_ofNat']
      omega

theorem hexValue_hexDigit : ∀ k < 16,
    hexValue ("0123456789abcdef".toList.getD k '0').toNat.toUInt8 = some k := by
  decide

/-- How a character is written inside a string: the seven with a short escape, each a backslash
and a letter naming one byte; the other control characters as `\u00` and two hex digits; and
every other character as its own bytes, none of them a control byte, a quote or a backslash. -/
theorem escapeChar_cases (ch : Char) :
    (∃ e b : UInt8, (e, b) ∈ [((34 : UInt8), (34 : UInt8)), (92, 92), (98, 8), (102, 12), (110, 10),
        (114, 13), (116, 9)] ∧
      (escapeChar ch).toUTF8.toList = [92, e] ∧ String.utf8EncodeChar ch = [b]) ∨
    (ch.toNat < 32 ∧ ∃ d₁ d₂ : UInt8, (escapeChar ch).toUTF8.toList = [92, 117, 48, 48, d₁, d₂] ∧
      hexValue d₁ = some (ch.toNat / 16) ∧ hexValue d₂ = some (ch.toNat % 16)) ∨
    ((escapeChar ch).toUTF8.toList = String.utf8EncodeChar ch ∧
      ∀ b ∈ String.utf8EncodeChar ch, 32 ≤ b.toNat ∧ b ≠ 34 ∧ b ≠ 92) := by
  unfold escapeChar
  split
  · exact .inl ⟨34, 34, by simp, by rw [Text.toUTF8_toList]; simp [String.utf8EncodeChar], by decide⟩
  · exact .inl ⟨92, 92, by simp, by rw [Text.toUTF8_toList]; simp [String.utf8EncodeChar], by decide⟩
  · exact .inl ⟨110, 10, by simp, by rw [Text.toUTF8_toList]; simp [String.utf8EncodeChar], by decide⟩
  · exact .inl ⟨114, 13, by simp, by rw [Text.toUTF8_toList]; simp [String.utf8EncodeChar], by decide⟩
  · exact .inl ⟨116, 9, by simp, by rw [Text.toUTF8_toList]; simp [String.utf8EncodeChar], by decide⟩
  · exact .inl ⟨98, 8, by simp, by rw [Text.toUTF8_toList]; simp [String.utf8EncodeChar], by decide⟩
  · exact .inl ⟨102, 12, by simp, by rw [Text.toUTF8_toList]; simp [String.utf8EncodeChar], by decide⟩
  · rename_i hq hb _ _ _ _ _
    split
    · -- another control character: `\u00` and its two hex digits
      rename_i hlt
      have hk₁ : ch.toNat / 16 < 16 := by omega
      have hk₂ : ch.toNat % 16 < 16 := Nat.mod_lt _ (by norm_num)
      refine .inr (.inl ⟨hlt, _, _, ?_, hexValue_hexDigit _ hk₁, hexValue_hexDigit _ hk₂⟩)
      have hascii : ∀ k < 16, ("0123456789abcdef".toList.getD k '0').toNat < 128 := by decide
      have hchars : ("\\u" ++ hexUnit ch.toNat).toList = ['\\', 'u', '0', '0',
          "0123456789abcdef".toList.getD (ch.toNat / 16) '0',
          "0123456789abcdef".toList.getD (ch.toNat % 16) '0'] := by
        rw [String.toList_append, hexUnit, Nat.mod_eq_of_lt hk₁]
        simp only [String.toList_ofList]
        rfl
      rw [Text.toUTF8_toList, hchars, Text.flatMap_utf8EncodeChar_of_lt]
      · rfl
      · intro c hc
        simp only [List.mem_cons, List.not_mem_nil, or_false] at hc
        rcases hc with rfl | rfl | rfl | rfl | rfl | rfl
        · decide
        · decide
        · decide
        · decide
        · exact hascii _ hk₁
        · exact hascii _ hk₂
    · -- any other character stands for itself
      rename_i hge
      refine .inr (.inr ⟨by rw [Text.toUTF8_toList]; simp, fun b hb => ?_⟩)
      by_cases hascii : ch.toNat < 128
      · rw [Text.utf8EncodeChar_of_lt hascii, List.mem_singleton] at hb
        subst hb
        have hq' : ch.toNat ≠ 34 := fun h => hq (Char.toNat_inj.1 (by rw [h]; rfl))
        have hb' : ch.toNat ≠ 92 := fun h => hb (Char.toNat_inj.1 (by rw [h]; rfl))
        refine ⟨by simp; omega, fun h => hq' ?_, fun h => hb' ?_⟩ <;>
          · have := congrArg UInt8.toNat h
            simp at this
            omega
      · have := le_of_mem_utf8EncodeChar (by omega) b hb
        refine ⟨by omega, fun h => ?_, fun h => ?_⟩ <;> subst h <;> simp at this

theorem utf8Of_toNat (ch : Char) : utf8Of ch.toNat = String.utf8EncodeChar ch := by
  rw [utf8Of, Text.toUTF8_toList, Char.ofNat_toNat, String.toList_singleton, List.flatMap_singleton]

/-- The string reader passes the written form of one character and keeps the character's bytes,
taking no more steps than the written form has bytes. -/
theorem stringBody_char (ch : Char) {c : Cursor} {more : List UInt8}
    (h : c.rest = (escapeChar ch).toUTF8.toList ++ more) {fuel : Nat}
    (hfuel : (escapeChar ch).toUTF8.toList.length ≤ fuel) (acc : List UInt8) :
    ∃ fuel', fuel - (escapeChar ch).toUTF8.toList.length ≤ fuel' ∧
      stringBody c fuel acc = stringBody (c.skip (escapeChar ch).toUTF8.toList.length) fuel'
        ((String.utf8EncodeChar ch).reverse ++ acc) := by
  rcases escapeChar_cases ch with ⟨e, b, he, hE, hU⟩ | ⟨hlt, d₁, d₂, hE, hv₁, hv₂⟩ | ⟨hE, hplain⟩
  · -- a short escape: one step over two bytes
    rw [hE] at h hfuel ⊢
    rw [hU]
    obtain ⟨f, rfl⟩ : ∃ f, fuel = f + 1 := ⟨fuel - 1, by simp at hfuel; omega⟩
    exact ⟨f, by simp, stringBody_escape (by rw [h]; rfl) he f acc⟩
  · -- a control character as `\u00` and two hex digits: one step over six bytes
    rw [hE] at h hfuel ⊢
    obtain ⟨f, rfl⟩ : ∃ f, fuel = f + 1 := ⟨fuel - 1, by simp at hfuel; omega⟩
    have hcode : ch.toNat / 16 * 16 + ch.toNat % 16 = ch.toNat := by omega
    refine ⟨f, by simp, ?_⟩
    rw [stringBody_unicode (by rw [h]; rfl) hv₁ hv₂ (by omega) f acc, hcode, utf8Of_toNat]
    rfl
  · -- any other character: one step per byte
    rw [hE] at h hfuel ⊢
    obtain ⟨f, rfl⟩ : ∃ f, fuel = f + (String.utf8EncodeChar ch).length :=
      ⟨fuel - (String.utf8EncodeChar ch).length, by omega⟩
    exact ⟨f, by simp, stringBody_plains hplain c h f acc⟩

/-- The string reader passes the written forms of characters one after another and keeps their
bytes. -/
theorem stringBody_chars (cs : List Char) :
    ∀ (c : Cursor) (more : List UInt8) (fuel : Nat) (acc : List UInt8),
      c.rest = (cs.flatMap fun ch => (escapeChar ch).toUTF8.toList) ++ more →
      (cs.flatMap fun ch => (escapeChar ch).toUTF8.toList).length ≤ fuel →
      ∃ fuel', fuel - (cs.flatMap fun ch => (escapeChar ch).toUTF8.toList).length ≤ fuel' ∧
        stringBody c fuel acc =
          stringBody (c.skip (cs.flatMap fun ch => (escapeChar ch).toUTF8.toList).length) fuel'
            ((cs.flatMap String.utf8EncodeChar).reverse ++ acc) := by
  induction cs with
  | nil => intro c more fuel acc _ _; exact ⟨fuel, by simp, by simp⟩
  | cons ch cs ih =>
    intro c more fuel acc h hfuel
    simp only [List.flatMap_cons, List.length_append] at h hfuel ⊢
    obtain ⟨f₁, hf₁, h₁⟩ := @stringBody_char ch c
      ((cs.flatMap fun ch => (escapeChar ch).toUTF8.toList) ++ more) (by rw [h, List.append_assoc])
      fuel (by omega) acc
    obtain ⟨f₂, hf₂, h₂⟩ := ih (c.skip (escapeChar ch).toUTF8.toList.length) more f₁
      ((String.utf8EncodeChar ch).reverse ++ acc)
      (by rw [rest_skip, h, List.append_assoc, List.drop_left]) (by omega)
    refine ⟨f₂, by omega, ?_⟩
    rw [h₁, h₂, skip_skip, List.reverse_append, List.append_assoc]

theorem quote_bytes (s : String) :
    (quote s).toUTF8.toList =
      34 :: (s.toList.flatMap fun ch => (escapeChar ch).toUTF8.toList) ++ [34] := by
  rw [quote]
  simp only [Text.toUTF8_toList, String.toList_append, String.toList_join, List.flatMap_append,
    List.flatMap_assoc, List.flatMap_map]
  simp [String.utf8EncodeChar]

theorem fromUTF8?_bytes (s : String) :
    String.fromUTF8? (ByteArray.mk (s.toList.flatMap String.utf8EncodeChar).toArray) = some s := by
  rw [← Text.toUTF8_toList, Text.byteArray_toList, Array.toArray_toList]
  simp [String.fromUTF8?, s.isValidUTF8, String.fromUTF8]

/-- A string, quote under the cursor, is read with its value, the cursor past its closing
quote. -/
theorem string_of_rest {c : Cursor} {s : String} {tail : List UInt8}
    (h : c.rest = (quote s).toUTF8.toList ++ tail) :
    string c = .ok (s, c.skip (quote s).toUTF8.toList.length) := by
  rw [quote_bytes] at h ⊢
  generalize hE : (s.toList.flatMap fun ch => (escapeChar ch).toUTF8.toList) = E at h ⊢
  -- the reader has a step for every byte of the text, and the text holds the whole string
  have hsize : E.length + 2 ≤ c.bytes.size := by
    have := length_rest c
    rw [h] at this
    simp at this
    omega
  have hcons : c.rest = 34 :: (E ++ 34 :: tail) := by
    rw [h]
    simp
  have hbody : c.next.rest = E ++ 34 :: tail := rest_next hcons
  obtain ⟨f, hf, hstep⟩ := stringBody_chars s.toList c.next (34 :: tail) (c.bytes.size + 1) []
    (by rw [hbody, hE]) (by rw [hE]; omega)
  rw [hE] at hf hstep
  obtain ⟨f', rfl⟩ : ∃ f', f = f' + 1 := ⟨f - 1, by omega⟩
  have hclose : (c.next.skip E.length).rest = 34 :: tail := by
    rw [rest_skip, hbody, List.drop_left]
  rw [string, hstep, stringBody_close hclose (by simpa using fromUTF8?_bytes s) f']
  simp [next_eq_skip, Nat.add_comm, Nat.add_left_comm]

/-- A string after blanks is read with its value. -/
theorem stringAt_of_rest {c : Cursor} {bl tail : List UInt8} {s : String}
    (h : c.rest = bl ++ (quote s).toUTF8.toList ++ tail) (hbl : ∀ b ∈ bl, blankByte b = true) :
    stringAt c = .ok (s, c.skip (bl.length + (quote s).toUTF8.toList.length)) := by
  obtain ⟨hskip, hrest⟩ := skipBlank_before h hbl (quote_bytes s) rfl
  have hquote : (c.skip bl.length).peek? = some 34 := by
    rw [peek?_eq_head?, hrest, quote_bytes]
    rfl
  unfold stringAt
  simp only [hskip, hquote]
  rw [string_of_rest hrest, skip_skip]

/-! ## Lists -/

theorem nextItem_later {c : Cursor} {bl bl' : List UInt8} {b : UInt8} {more : List UInt8}
    (h : c.rest = bl ++ 44 :: bl' ++ b :: more) (hbl : ∀ x ∈ bl, blankByte x = true)
    (hbl' : ∀ x ∈ bl', blankByte x = true) (hb : blankByte b = false) (h93 : b ≠ 93) :
    nextItem c false = .ok (some (c.skip (bl.length + 1 + bl'.length))) := by
  have hskip : c.skipBlank = c.skip bl.length :=
    skipBlank_of_rest (by rw [h, List.append_assoc]) hbl (by intro x hx; cases hx; rfl)
  have hcomma : (c.skip bl.length).rest = 44 :: (bl' ++ b :: more) := by
    rw [rest_skip, h, List.append_assoc, List.drop_left]
    rfl
  have hskip' : (c.skip bl.length).next.skipBlank = (c.skip bl.length).next.skip bl'.length :=
    skipBlank_of_rest (rest_next hcomma) hbl' (by intro x hx; cases hx; exact hb)
  have hitem : ((c.skip bl.length).next.skip bl'.length).peek? = some b := by
    rw [peek?_eq_head?, rest_skip, rest_next hcomma, List.drop_left]
    rfl
  unfold nextItem
  simp only [hskip, peek?_of_rest hcomma, hskip', hitem, Bool.false_eq_true, if_false]
  simp [next_eq_skip, Nat.add_assoc]

theorem nextItem_first {c : Cursor} {bl : List UInt8} {b : UInt8} {more : List UInt8}
    (h : c.rest = bl ++ b :: more) (hbl : ∀ x ∈ bl, blankByte x = true) (hb : blankByte b = false)
    (h93 : b ≠ 93) : nextItem c true = .ok (some (c.skip bl.length)) := by
  have hskip : c.skipBlank = c.skip bl.length :=
    skipBlank_of_rest h hbl (by intro x hx; cases hx; exact hb)
  have hitem := peek?_skip h
  unfold nextItem
  simp only [hskip, hitem]
  split
  · rename_i heq
    cases heq
  · rename_i heq
    exact absurd (Option.some.inj heq) h93
  · rfl
  · rfl

theorem nextItem_end {c : Cursor} {bl : List UInt8} {more : List UInt8}
    (h : c.rest = bl ++ 93 :: more) (hbl : ∀ x ∈ bl, blankByte x = true) (first : Bool) :
    nextItem c first = .ok none := by
  have hskip : c.skipBlank = c.skip bl.length :=
    skipBlank_of_rest h hbl (by intro x hx; cases hx; rfl)
  have hend := peek?_skip h
  unfold nextItem
  simp only [hskip, hend]

theorem endList_of_rest {c : Cursor} {bl : List UInt8} {more : List UInt8}
    (h : c.rest = bl ++ 93 :: more) (hbl : ∀ x ∈ bl, blankByte x = true) :
    endList c = .ok (c.skip (bl.length + 1)) := by
  have hskip : c.skipBlank = c.skip bl.length :=
    skipBlank_of_rest h hbl (by intro x hx; cases hx; rfl)
  have hend := peek?_skip h
  unfold endList
  simp only [hskip, hend, next_eq_skip, skip_skip]

theorem finish_of_rest {c : Cursor} (h : c.rest = []) : c.finish = .ok () := by
  have hskip : c.skipBlank = c.skip 0 := skipBlank_of_rest (h.trans (List.nil_append []).symm)
    (by simp) (by intro x hx; cases hx)
  have hend : (c.skip 0).peek? = none := by
    rw [peek?_eq_head?, rest_skip, h]
    rfl
  unfold finish
  simp only [hskip, hend]

/-! ## The layout of indented JSON -/

theorem toUTF8_toList_append (a b : String) :
    (a ++ b).toUTF8.toList = a.toUTF8.toList ++ b.toUTF8.toList := by
  rw [Text.toUTF8_toList, Text.toUTF8_toList, Text.toUTF8_toList, String.toList_append,
    List.flatMap_append]

theorem newline_bytes : ("\n" : String).toUTF8.toList = [10] := by
  rw [Text.toUTF8_toList]
  simp [String.utf8EncodeChar]

theorem comma_newline_bytes : (",\n" : String).toUTF8.toList = [44, 10] := by
  rw [Text.toUTF8_toList]
  simp [String.utf8EncodeChar]

theorem open_bracket_bytes : ("[" : String).toUTF8.toList = [91] := by
  rw [Text.toUTF8_toList]
  simp [String.utf8EncodeChar]

theorem close_bracket_bytes : ("]" : String).toUTF8.toList = [93] := by
  rw [Text.toUTF8_toList]
  simp [String.utf8EncodeChar]

theorem indent_bytes (l : Nat) : (indent l).toUTF8.toList = List.replicate (2 * l) 32 := by
  rw [indent, Text.toUTF8_toList, String.toList_ofList]
  induction 2 * l with
  | zero => rfl
  | succ n ih =>
    rw [List.replicate_succ, List.flatMap_cons, ih, List.replicate_succ]
    rfl

theorem blank_of_mem_replicate {n : Nat} {x : UInt8} (hx : x ∈ List.replicate n 32) :
    blankByte x = true := by
  rw [(List.mem_replicate.1 hx).2]
  rfl

theorem blank_of_mem_space {x : UInt8} (hx : x ∈ ([32] : List UInt8)) : blankByte x = true := by
  rw [List.mem_singleton.1 hx]
  rfl

theorem blank_of_mem_newline_indent {k : Nat} {x : UInt8}
    (hx : x ∈ 10 :: List.replicate (2 * k) 32) : blankByte x = true := by
  rcases List.mem_cons.1 hx with rfl | hx
  · rfl
  · exact blank_of_mem_replicate hx

theorem close_bytes (l : Nat) :
    ("\n" ++ indent l ++ "]").toUTF8.toList = 10 :: List.replicate (2 * l) 32 ++ [93] := by
  rw [toUTF8_toList_append, toUTF8_toList_append, indent_bytes, newline_bytes, close_bracket_bytes]
  rfl

theorem prettyItems_cons (l : Nat) (x : Json) (xs : List Json) :
    prettyItems l (x :: xs) =
      indent l ++ pretty l x ++ String.join (xs.map fun y => ",\n" ++ indent l ++ pretty l y) := by
  induction xs generalizing x with
  | nil => simp [prettyItems]
  | cons y ys ih =>
    rw [prettyItems.eq_3 _ _ _ (List.cons_ne_nil _ _), ih]
    simp [String.append_assoc]

/-! ## Reading lists back -/

section Items

variable {α : Type} {item : Cursor → Except Located (α × Cursor)} {w : α → String}

/-- What the list readers need of an item and its reader: the written item starts with no blank
and no closing bracket, and the reader reads it back, the cursor right after it, when a comma or
a line feed follows it. -/
def ReadsBack (item : Cursor → Except Located (α × Cursor)) (w : α → String) (x : α) : Prop :=
  (∃ b more, (w x).toUTF8.toList = b :: more ∧ blankByte b = false ∧ b ≠ 93) ∧
  ∀ (c : Cursor) (tail : List UInt8), c.rest = (w x).toUTF8.toList ++ tail →
    (tail.head? = some 44 ∨ tail.head? = some 10) →
    item c = .ok (x, c.skip (w x).toUTF8.toList.length)

/-- The items after the first of a list and its closing bracket, as the writer lays them out:
each after a comma, a line feed and its indent, then the bracket on a line of its own. -/
def laterItems (w : α → String) (k l : Nat) (xs : List α) : String :=
  String.join (xs.map fun x => ",\n" ++ indent k ++ w x) ++ "\n" ++ indent l ++ "]"

theorem laterItems_nil (w : α → String) (k l : Nat) :
    (laterItems w k l []).toUTF8.toList = 10 :: List.replicate (2 * l) 32 ++ [93] := by
  rw [laterItems, List.map_nil, String.join_nil, String.empty_append, close_bytes]

theorem laterItems_cons (w : α → String) (k l : Nat) (x : α) (xs : List α) :
    (laterItems w k l (x :: xs)).toUTF8.toList =
      (44 :: 10 :: List.replicate (2 * k) 32) ++ (w x).toUTF8.toList ++
        (laterItems w k l xs).toUTF8.toList := by
  rw [laterItems, laterItems, List.map_cons, String.join_cons]
  simp only [toUTF8_toList_append, indent_bytes, comma_newline_bytes, List.append_assoc, List.cons_append,
    List.nil_append]

theorem head_laterItems (w : α → String) (k l : Nat) (xs : List α) (tail : List UInt8) :
    ((laterItems w k l xs).toUTF8.toList ++ tail).head? = some 44 ∨
      ((laterItems w k l xs).toUTF8.toList ++ tail).head? = some 10 := by
  cases xs with
  | nil =>
    right
    rw [laterItems_nil]
    rfl
  | cons x xs =>
    left
    rw [laterItems_cons]
    rfl

theorem length_laterItems_cons (w : α → String) (k l : Nat) (x : α) (xs : List α) :
    (laterItems w k l (x :: xs)).toUTF8.toList.length =
      2 * k + 2 + (w x).toUTF8.toList.length + (laterItems w k l xs).toUTF8.toList.length := by
  rw [laterItems_cons]
  simp
  omega

theorem rest_closing {c : Cursor} {tail : List UInt8}
    (h : c.rest = (laterItems w k l []).toUTF8.toList ++ tail) :
    c.rest = (10 :: List.replicate (2 * l) 32) ++ 93 :: tail := by
  rw [h, laterItems_nil]
  simp

/-- An item after the first: the separator is passed and the item read back, which leaves the
cursor before the next separator or the closing line. -/
theorem later_step {y : α} {ys : List α} (hy : ReadsBack item w y) {c : Cursor} {tail : List UInt8}
    (h : c.rest = (laterItems w k l (y :: ys)).toUTF8.toList ++ tail) :
    ∃ c', nextItem c false = .ok (some c') ∧
      item c' = .ok (y, c.skip (2 * k + 2 + (w y).toUTF8.toList.length)) ∧
      (c.skip (2 * k + 2 + (w y).toUTF8.toList.length)).rest =
        (laterItems w k l ys).toUTF8.toList ++ tail := by
  obtain ⟨⟨b, more, hw, hb, h93⟩, hread⟩ := hy
  rw [laterItems_cons] at h
  have hsep : c.rest = [] ++ 44 :: (10 :: List.replicate (2 * k) 32) ++
      b :: (more ++ (laterItems w k l ys).toUTF8.toList ++ tail) := by
    rw [h, hw]
    simp
  have hnext := nextItem_later hsep (by simp) (fun x hx => blank_of_mem_newline_indent hx) hb h93
  -- the item starts after the separator and is followed by the next separator or the end
  have hitem : (c.skip (2 * k + 2)).rest =
      (w y).toUTF8.toList ++ ((laterItems w k l ys).toUTF8.toList ++ tail) := by
    rw [rest_skip, h, List.append_assoc, List.append_assoc, List.drop_left']
    simp
  refine ⟨c.skip (2 * k + 2), ?_, ?_, ?_⟩
  · rw [hnext]
    simp only [List.length_nil, List.length_cons, List.length_replicate]
    congr 3
    omega
  · rw [hread _ _ hitem (head_laterItems w k l ys tail), skip_skip]
  · rw [← skip_skip, rest_skip, hitem, List.drop_left]

theorem fixedItems_later (k l : Nat) (expected : String) (total : Nat) :
    ∀ (xs : List α), (∀ x ∈ xs, ReadsBack item w x) →
    ∀ (c : Cursor) (acc : List α) (tail : List UInt8), acc ≠ [] →
      c.rest = (laterItems w k l xs).toUTF8.toList ++ tail →
      fixedItems item expected total xs.length c acc =
        .ok (acc.reverse ++ xs, c.skip (laterItems w k l xs).toUTF8.toList.length)
  | [], _, c, acc, tail, _, h => by
    rw [laterItems_nil]
    simp [fixedItems, endList_of_rest (rest_closing h) (fun x hx => blank_of_mem_newline_indent hx),
      bind, Except.bind, pure, Except.pure]
  | y :: ys, hxs, c, acc, tail, hacc, h => by
    obtain ⟨c', hnext, hread, hrest⟩ := later_step (hxs y List.mem_cons_self) h
    have hacc' : acc.isEmpty = false := List.isEmpty_eq_false_iff.2 hacc
    rw [List.length_cons, fixedItems]
    simp only [hacc', hnext, hread, bind, Except.bind]
    rw [fixedItems_later k l expected total ys (fun x hx => hxs x (List.mem_cons_of_mem _ hx)) _
      (y :: acc) tail (List.cons_ne_nil _ _) hrest, length_laterItems_cons, skip_skip]
    simp [Nat.add_assoc]

theorem anyItems_later (k l : Nat) :
    ∀ (xs : List α), (∀ x ∈ xs, ReadsBack item w x) →
    ∀ (fuel : Nat) (c : Cursor) (acc : List α) (tail : List UInt8), acc ≠ [] → xs.length < fuel →
      c.rest = (laterItems w k l xs).toUTF8.toList ++ tail →
      anyItems item fuel c acc =
        .ok (acc.reverse ++ xs, c.skip (laterItems w k l xs).toUTF8.toList.length)
  | [], _, fuel + 1, c, acc, tail, _, _, h => by
    have hclose := rest_closing h
    have hskip : c.skipBlank = c.skip (2 * l + 1) := by
      rw [skipBlank_of_rest hclose (fun x hx => blank_of_mem_newline_indent hx)
        (by intro x hx; cases hx; rfl)]
      simp
    rw [anyItems, nextItem_end hclose (fun x hx => blank_of_mem_newline_indent hx), laterItems_nil]
    simp [hskip, next_eq_skip, bind, Except.bind, pure, Except.pure]
  | y :: ys, hxs, fuel + 1, c, acc, tail, hacc, hfuel, h => by
    obtain ⟨c', hnext, hread, hrest⟩ := later_step (hxs y List.mem_cons_self) h
    have hacc' : acc.isEmpty = false := List.isEmpty_eq_false_iff.2 hacc
    rw [anyItems]
    simp only [hacc', hnext, hread, bind, Except.bind]
    rw [anyItems_later k l ys (fun x hx => hxs x (List.mem_cons_of_mem _ hx)) fuel _
      (y :: acc) tail (List.cons_ne_nil _ _) (by simp at hfuel; omega) hrest,
      length_laterItems_cons, skip_skip]
    simp [Nat.add_assoc]

/-- The text of a list after its opening bracket, as the writer lays it out: the closing bracket
alone when the list is empty, else each item on a line of its own at indent `k`, then the
bracket on a line at indent `l`. -/
def itemsText (w : α → String) (k l : Nat) : List α → String
  | [] => "]"
  | x :: xs => "\n" ++ indent k ++ w x ++ laterItems w k l xs

theorem itemsText_nil (w : α → String) (k l : Nat) : (itemsText w k l []).toUTF8.toList = [93] := by
  rw [itemsText, close_bracket_bytes]

theorem itemsText_cons (w : α → String) (k l : Nat) (x : α) (xs : List α) :
    (itemsText w k l (x :: xs)).toUTF8.toList =
      (10 :: List.replicate (2 * k) 32) ++ (w x).toUTF8.toList ++ (laterItems w k l xs).toUTF8.toList := by
  rw [itemsText, toUTF8_toList_append, toUTF8_toList_append, toUTF8_toList_append, newline_bytes,
    indent_bytes]
  rfl

theorem pretty_arr_map (l : Nat) (f : α → Json) (xs : List α) :
    (pretty l (.arr (xs.map f))).toUTF8.toList =
      91 :: (itemsText (fun x => pretty (l + 1) (f x)) (l + 1) l xs).toUTF8.toList := by
  cases xs with
  | nil =>
    have hsplit : ("[]" : String) = "[" ++ "]" := rfl
    rw [List.map_nil, pretty, itemsText_nil, hsplit, toUTF8_toList_append, open_bracket_bytes,
      close_bracket_bytes]
    rfl
  | cons x xs =>
    have hsplit : ("[\n" : String) = "[" ++ "\n" := rfl
    have hlater : laterItems (fun x => pretty (l + 1) (f x)) (l + 1) l xs =
        String.join ((xs.map f).map fun y => ",\n" ++ indent (l + 1) ++ pretty (l + 1) y) ++ "\n" ++
          indent l ++ "]" := by
      rw [laterItems, List.map_map]
      rfl
    rw [List.map_cons, pretty, prettyItems_cons, itemsText_cons, hlater]
    · simp only [hsplit, toUTF8_toList_append, open_bracket_bytes, newline_bytes, indent_bytes,
        List.append_assoc]
      rfl
    · exact fun h => List.cons_ne_nil _ _ h

theorem length_le_laterItems (w : α → String) (k l : Nat) :
    ∀ xs : List α, xs.length ≤ (laterItems w k l xs).toUTF8.toList.length
  | [] => Nat.zero_le _
  | x :: xs => by
    have := length_le_laterItems w k l xs
    rw [length_laterItems_cons, List.length_cons]
    omega

theorem length_le_itemsText (w : α → String) (k l : Nat) (xs : List α) :
    xs.length ≤ (itemsText w k l xs).toUTF8.toList.length := by
  cases xs with
  | nil => exact Nat.zero_le _
  | cons x xs =>
    have := length_le_laterItems w k l xs
    rw [itemsText_cons, List.length_cons]
    simp only [List.length_append, List.length_cons, List.length_replicate]
    omega

/-- The first item of a list: its line is passed and the item read back, which leaves the cursor
before the next separator or the closing line. -/
theorem first_step {x : α} {xs : List α} (hx : ReadsBack item w x) {c : Cursor} {tail : List UInt8}
    (h : c.rest = (itemsText w k l (x :: xs)).toUTF8.toList ++ tail) :
    ∃ c', nextItem c true = .ok (some c') ∧
      item c' = .ok (x, c.skip (2 * k + 1 + (w x).toUTF8.toList.length)) ∧
      (c.skip (2 * k + 1 + (w x).toUTF8.toList.length)).rest =
        (laterItems w k l xs).toUTF8.toList ++ tail := by
  obtain ⟨⟨b, more, hw, hb, h93⟩, hread⟩ := hx
  rw [itemsText_cons] at h
  have hline : c.rest = (10 :: List.replicate (2 * k) 32) ++
      b :: (more ++ (laterItems w k l xs).toUTF8.toList ++ tail) := by
    rw [h, hw]
    simp
  have hnext := nextItem_first hline (fun x hx => blank_of_mem_newline_indent hx) hb h93
  have hitem : (c.skip (2 * k + 1)).rest =
      (w x).toUTF8.toList ++ ((laterItems w k l xs).toUTF8.toList ++ tail) := by
    rw [rest_skip, h, List.append_assoc, List.append_assoc, List.drop_left']
    simp
  refine ⟨c.skip (2 * k + 1), ?_, ?_, ?_⟩
  · rw [hnext]
    simp
  · rw [hread _ _ hitem (head_laterItems w k l xs tail), skip_skip]
  · rw [← skip_skip, rest_skip, hitem, List.drop_left]

/-- A written list of `n` items, read as a list of exactly `n` items, after its opening bracket. -/
theorem fixedItems_all (k l : Nat) (expected : String) (total : Nat) {xs : List α}
    (hxs : ∀ x ∈ xs, ReadsBack item w x) {c : Cursor} {tail : List UInt8}
    (h : c.rest = (itemsText w k l xs).toUTF8.toList ++ tail) :
    fixedItems item expected total xs.length c [] = .ok (xs, c.skip (itemsText w k l xs).toUTF8.toList.length) := by
  cases xs with
  | nil =>
    rw [itemsText_nil] at h ⊢
    have hend := endList_of_rest (show c.rest = [] ++ 93 :: tail by rw [h]; rfl) (by simp)
    simp [fixedItems, hend, bind, Except.bind, pure, Except.pure]
  | cons x xs =>
    obtain ⟨c', hnext, hread, hrest⟩ := first_step (hxs x List.mem_cons_self) h
    rw [List.length_cons, fixedItems]
    simp only [List.isEmpty_nil, hnext, hread, bind, Except.bind]
    rw [fixedItems_later k l expected total xs (fun y hy => hxs y (List.mem_cons_of_mem _ hy)) _
      [x] tail (List.cons_ne_nil _ _) hrest, itemsText_cons, skip_skip]
    simp only [List.length_append, List.length_cons, List.length_replicate, List.reverse_singleton,
      List.singleton_append]

/-- A written list, read as a list of any length after its opening bracket, with fuel for more
items than it has. -/
theorem anyItems_all (k l : Nat) {xs : List α} (hxs : ∀ x ∈ xs, ReadsBack item w x) {fuel : Nat}
    (hfuel : xs.length < fuel) {c : Cursor} {tail : List UInt8}
    (h : c.rest = (itemsText w k l xs).toUTF8.toList ++ tail) :
    anyItems item fuel c [] = .ok (xs, c.skip (itemsText w k l xs).toUTF8.toList.length) := by
  obtain ⟨fuel, rfl⟩ : ∃ f, fuel = f + 1 := ⟨fuel - 1, by omega⟩
  cases xs with
  | nil =>
    rw [itemsText_nil] at h ⊢
    have hend := nextItem_end (show c.rest = [] ++ 93 :: tail by rw [h]; rfl) (by simp) true
    have hskip := skipBlank_of_head (by rw [h]; rfl) (show blankByte 93 = false from rfl)
    simp [anyItems, hend, hskip, next_eq_skip, bind, Except.bind, pure, Except.pure]
  | cons x xs =>
    obtain ⟨c', hnext, hread, hrest⟩ := first_step (hxs x List.mem_cons_self) h
    rw [anyItems]
    simp only [List.isEmpty_nil, hnext, hread, bind, Except.bind]
    rw [anyItems_later k l xs (fun y hy => hxs y (List.mem_cons_of_mem _ hy)) fuel _
      [x] tail (List.cons_ne_nil _ _) (by simp at hfuel; omega) hrest, itemsText_cons, skip_skip]
    simp only [List.length_append, List.length_cons, List.length_replicate, List.reverse_singleton,
      List.singleton_append]

end Items

/-! ## Keys -/

theorem pretty_nat (l n : Nat) : pretty l (Json.nat n) = Nat.repr n := by
  rw [Json.nat, pretty, compact] <;> simp
  rfl

theorem readsBack_repr (what : String) {n max : Nat} (hn : n ≤ max) (hmax : max < Nat.pow 2 64) :
    ReadsBack (unsignedAt what max) Nat.repr n := by
  obtain ⟨d, ds, hd, hdigit⟩ := repr_bytes_cons n
  refine ⟨⟨d, ds, hd, blankByte_of_digitByte hdigit, ?_⟩, fun c tail h htail => ?_⟩
  · rintro rfl
    cases hdigit
  · -- a comma or a line feed ends the number
    have hstop : ∀ b ∈ tail.head?, digitByte b = false ∧ b ≠ 46 ∧ b ≠ 101 ∧ b ≠ 69 := by
      intro b hb
      rcases htail with ht | ht <;> rw [ht] at hb <;> cases hb <;> decide
    simpa using unsignedAt_of_rest what hn hmax
      (show c.rest = [] ++ (Nat.repr n).toUTF8.toList ++ tail by simpa using h) (by simp) hstop

theorem keyJson_bytes (l : Nat) (k : PublicKey) :
    (pretty l (SavedNode.keyJson k)).toUTF8.toList =
      91 :: (itemsText Nat.repr (l + 1) l (k.bytes.map UInt8.toNat)).toUTF8.toList := by
  have hkey : SavedNode.keyJson k = .arr ((k.bytes.map UInt8.toNat).map Json.nat) := by
    rw [SavedNode.keyJson, List.map_map]
    rfl
  have hw : (fun n => pretty (l + 1) (Json.nat n)) = Nat.repr := funext (pretty_nat (l + 1))
  rw [hkey, pretty_arr_map, hw]

theorem keyAt_of_rest {c : Cursor} {bl tail : List UInt8} {k : PublicKey} (l : Nat)
    (h : c.rest = bl ++ (pretty l (SavedNode.keyJson k)).toUTF8.toList ++ tail)
    (hbl : ∀ b ∈ bl, blankByte b = true) :
    keyAt c = .ok (k, c.skip (bl.length + (pretty l (SavedNode.keyJson k)).toUTF8.toList.length)) := by
  rw [keyJson_bytes] at h ⊢
  obtain ⟨hskip, hrest⟩ := skipBlank_before h hbl rfl rfl
  rw [List.cons_append] at hrest
  have hbytes : ∀ n ∈ k.bytes.map UInt8.toNat, ReadsBack (unsignedAt "u8" 255) Nat.repr n := by
    intro n hn
    obtain ⟨b, -, rfl⟩ := List.mem_map.1 hn
    exact readsBack_repr "u8" (by have := b.toNat_lt; omega) (by decide)
  have hitems := fixedItems_all (l + 1) l "an array of length 32" 32 hbytes (rest_next hrest)
  have hlen : (k.bytes.map UInt8.toNat).length = 32 := by rw [List.length_map, k.length_eq]
  -- the byte values read are the key's bytes
  have hkey : PublicKey.ofBytes? ((k.bytes.map UInt8.toNat).map Nat.toUInt8) = some k := by
    have hid : (Nat.toUInt8 ∘ UInt8.toNat) = id := funext fun b => by simp
    rw [List.map_map, hid, List.map_id, PublicKey.ofBytes?, dif_pos k.length_eq]
  rw [hlen] at hitems
  unfold keyAt
  simp only [hskip, peek?_of_rest hrest, hitems, hkey]
  rw [next_eq_skip, skip_skip, skip_skip, List.length_cons, Nat.add_comm 1]

theorem readsBack_key (l : Nat) (k : PublicKey) :
    ReadsBack keyAt (fun k => pretty l (SavedNode.keyJson k)) k := by
  refine ⟨⟨91, _, keyJson_bytes l k, rfl, by decide⟩, fun c tail h _ => ?_⟩
  simpa using keyAt_of_rest l
    (show c.rest = [] ++ (pretty l (SavedNode.keyJson k)).toUTF8.toList ++ tail by simpa using h) (by simp)

/-- A written list of keys, after blanks, is read back. -/
theorem keysAt_of_rest {c : Cursor} {bl tail : List UInt8} {ks : List PublicKey} (l : Nat)
    (h : c.rest = bl ++ (pretty l (.arr (ks.map SavedNode.keyJson))).toUTF8.toList ++ tail)
    (hbl : ∀ b ∈ bl, blankByte b = true) :
    keysAt c = .ok (ks, c.skip (bl.length +
      (pretty l (.arr (ks.map SavedNode.keyJson))).toUTF8.toList.length)) := by
  rw [pretty_arr_map] at h ⊢
  generalize hitemsText : itemsText (fun k => pretty (l + 1) (SavedNode.keyJson k)) (l + 1) l ks = t
    at h ⊢
  obtain ⟨hskip, hrest⟩ := skipBlank_before h hbl rfl rfl
  rw [List.cons_append] at hrest
  -- each key takes a byte at least, so the fuel of one a byte of the text is enough
  have hfuel : ks.length < c.bytes.size + 1 := by
    have hlen := length_rest (c.skip bl.length)
    have hle := length_le_itemsText (fun k => pretty (l + 1) (SavedNode.keyJson k)) (l + 1) l ks
    rw [hrest, hitemsText] at *
    simp only [List.length_cons, List.length_append, skip_bytes] at hlen
    omega
  have hitems := anyItems_all (l + 1) l (fun k _ => readsBack_key (l + 1) k) hfuel
    (rest_next (by rw [hrest, ← hitemsText]))
  rw [hitemsText] at hitems
  unfold keysAt
  simp only [hskip, peek?_of_rest hrest, skip_bytes, hitems]
  rw [next_eq_skip, skip_skip, skip_skip, List.length_cons, Nat.add_comm 1]

end Json.Cursor

namespace SavedNode

open Json Json.Cursor

/-! ## The fields of the object -/

/-- One field of the object: the separator before it, its quoted name, the colon, and its value,
read into the fields read so far when the name is not among them yet. -/
theorem fields_field (fuel : Nat) {c : Cursor} {first : Bool} {sep value tail : List UInt8}
    {p p' : Partial} {name : String}
    (h : c.rest = sep ++ (quote name).toUTF8.toList ++ 58 :: value ++ tail)
    (hsep : sep = if first then [10, 32, 32] else [44, 10, 32, 32])
    (hnew : p.has name = false)
    (hread : ∀ c', c'.rest = value ++ tail → readField p name c' = .ok (p', c'.skip value.length)) :
    fields (fuel + 1) c first p =
      fields fuel (c.skip (sep.length + (quote name).toUTF8.toList.length + 1 + value.length)) false p' := by
  obtain ⟨qs, hq⟩ : ∃ qs, (quote name).toUTF8.toList = 34 :: qs := ⟨_, quote_bytes name⟩
  have hname : (c.skip sep.length).rest = (quote name).toUTF8.toList ++ 58 :: value ++ tail := by
    rw [rest_skip, h, List.append_assoc, List.append_assoc, List.drop_left, List.append_assoc]
  have hquote : (c.skip sep.length).peek? = some 34 :=
    peek?_of_rest (by rw [hname, hq, List.cons_append, List.cons_append])
  have hstring := string_of_rest (by rw [hname, List.append_assoc])
  have hcolon : ((c.skip sep.length).skip (quote name).toUTF8.toList.length).rest = 58 :: (value ++ tail) := by
    rw [rest_skip, hname, List.append_assoc, List.drop_left]
    rfl
  -- no blanks stand before the colon, and the value starts right after it
  have hcolonBlank := skipBlank_of_head hcolon (show blankByte 58 = false from rfl)
  have hcolonPeek : ((c.skip sep.length).skip (quote name).toUTF8.toList.length).skipBlank.peek? =
      some 58 := by
    rw [hcolonBlank]
    exact peek?_of_rest hcolon
  have hvalue : readField p name ((c.skip sep.length).skip (quote name).toUTF8.toList.length).skipBlank.next =
      .ok (p', c.skip (sep.length + (quote name).toUTF8.toList.length + 1 + value.length)) := by
    have hsplit : c.rest = (sep ++ (quote name).toUTF8.toList ++ [58]) ++ (value ++ tail) := by
      rw [h]
      simp
    rw [hcolonBlank, next_eq_skip, skip_skip, skip_skip, ← Nat.add_assoc, hread, skip_skip]
    rw [rest_skip, hsplit, List.drop_left']
    simp
    omega
  have hblank : ∀ x ∈ [10, 32, 32], blankByte x = true := fun x hx =>
    blank_of_mem_newline_indent (k := 1) hx
  cases first with
  | true =>
    rw [if_pos rfl] at hsep
    subst hsep
    have hskip := skipBlank_of_rest
      (show c.rest = [10, 32, 32] ++ 34 :: (qs ++ 58 :: value ++ tail) by
        rw [h, hq]; simp only [List.cons_append, List.nil_append, List.append_assoc]) hblank
      (by intro x hx; cases hx; rfl)
    rw [fields]
    simp +decide only [hskip, hquote, hstring, hnew, hcolonPeek, hvalue, Bool.and_false,
      Bool.false_eq_true, if_true, if_false, bind, Except.bind, pure, Except.pure]
  | false =>
    rw [if_neg Bool.false_ne_true] at hsep
    subst hsep
    have hskip := skipBlank_of_head (by rw [h]; rfl) (show blankByte 44 = false from rfl)
    have hcomma : c.peek? = some 44 := peek?_of_rest (by rw [h]; rfl)
    have hline : c.next.skipBlank = c.skip ([44, 10, 32, 32] : List UInt8).length := by
      have hrest : c.rest = 44 :: ([10, 32, 32] ++ 34 :: (qs ++ 58 :: value ++ tail)) := by
        rw [h, hq]
        simp only [List.cons_append, List.nil_append, List.append_assoc]
      rw [skipBlank_of_rest (rest_next hrest) hblank (by intro x hx; cases hx; rfl), next_eq_skip,
        skip_skip]
      rfl
    rw [fields]
    simp +decide only [hskip, hcomma, hline, hquote, hstring, hnew, hcolonPeek, hvalue,
      Bool.and_false, Bool.false_eq_true, if_false, bind, Except.bind, pure, Except.pure]

theorem rest_after_field {c : Cursor} {sep q value tail : List UInt8}
    (h : c.rest = sep ++ q ++ 58 :: value ++ tail) :
    (c.skip (sep.length + q.length + 1 + value.length)).rest = tail := by
  rw [rest_skip, h, List.drop_left']
  simp
  omega

theorem fields_close (fuel : Nat) {c : Cursor} {tail : List UInt8} {p : Partial} {s : SavedNode}
    (h : c.rest = 10 :: 125 :: tail) (hp : p.finish = .ok s) :
    fields (fuel + 1) c false p = .ok (s, c.skip 2) := by
  have hskip : c.skipBlank = c.skip 1 :=
    skipBlank_of_rest (show c.rest = [10] ++ 125 :: tail from h)
      (fun x hx => by rw [List.mem_singleton.1 hx]; rfl) (by intro x hx; cases hx; rfl)
  have hclose : (c.skip 1).peek? = some 125 := peek?_skip (show c.rest = [10] ++ 125 :: tail from h)
  rw [fields]
  simp +decide only [hskip, hclose, hp, bind, Except.bind, pure, Except.pure, next_eq_skip, skip_skip]

theorem readField_key (p : Partial) (k : PublicKey) (tail : List UInt8) (c : Cursor)
    (h : c.rest = (32 :: (pretty 1 (keyJson k)).toUTF8.toList) ++ tail) :
    readField p "public_key" c =
      .ok ({ p with key := some k }, c.skip (32 :: (pretty 1 (keyJson k)).toUTF8.toList).length) := by
  rw [readField, keyAt_of_rest 1 (show c.rest = [32] ++ (pretty 1 (keyJson k)).toUTF8.toList ++ tail from h)
    (fun x hx => blank_of_mem_space hx),
    List.length_singleton, List.length_cons, Nat.add_comm 1]
  rfl

theorem readField_nospam (p : Partial) (n : UInt32) (tail : List UInt8) (c : Cursor)
    (h : c.rest = (32 :: (Nat.repr n.toNat).toUTF8.toList) ++ tail) (htail : tail.head? = some 44) :
    readField p "nospam" c =
      .ok ({ p with nospam := some n }, c.skip (32 :: (Nat.repr n.toNat).toUTF8.toList).length) := by
  have hn : n.toNat ≤ Nat.pow 2 32 - 1 := by
    have := n.toNat_lt
    simp only [Nat.pow_eq] at *
    omega
  have hstop : ∀ b ∈ tail.head?, digitByte b = false ∧ b ≠ 46 ∧ b ≠ 101 ∧ b ≠ 69 := by
    intro b hb
    rw [htail] at hb
    cases hb
    decide
  rw [readField, unsignedAt_of_rest "u32" hn (by decide)
    (show c.rest = [32] ++ (Nat.repr n.toNat).toUTF8.toList ++ tail from h)
    (fun x hx => blank_of_mem_space hx) hstop, List.length_singleton, List.length_cons, Nat.add_comm 1]
  simp [Except.map]

theorem readField_name (p : Partial) (m : String) (tail : List UInt8) (c : Cursor)
    (h : c.rest = (32 :: (quote m).toUTF8.toList) ++ tail) :
    readField p "name" c =
      .ok ({ p with name := some m }, c.skip (32 :: (quote m).toUTF8.toList).length) := by
  rw [readField, stringAt_of_rest (show c.rest = [32] ++ (quote m).toUTF8.toList ++ tail from h)
    (fun x hx => blank_of_mem_space hx),
    List.length_singleton, List.length_cons, Nat.add_comm 1]
  rfl

theorem readField_friends (p : Partial) (fs : List PublicKey) (tail : List UInt8) (c : Cursor)
    (h : c.rest = (32 :: (pretty 1 (.arr (fs.map keyJson))).toUTF8.toList) ++ tail) :
    readField p "friends" c =
      .ok ({ p with friends := some fs }, c.skip (32 :: (pretty 1 (.arr (fs.map keyJson))).toUTF8.toList).length) := by
  rw [readField, keysAt_of_rest 1
    (show c.rest = [32] ++ (pretty 1 (.arr (fs.map keyJson))).toUTF8.toList ++ tail from h)
    (fun x hx => blank_of_mem_space hx),
    List.length_singleton, List.length_cons, Nat.add_comm 1]
  rfl

theorem pretty_str (l : Nat) (m : String) : pretty l (Json.str m) = quote m := by
  rw [pretty, compact] <;> simp

/-- The saved text, byte by byte: the opening brace, each field on a line of its own after a comma
and an indent of two, and the closing brace on the last line. -/
theorem text_bytes (s : SavedNode) :
    (text s).toUTF8.toList = 123 ::
      ([10, 32, 32] ++ (quote "public_key").toUTF8.toList ++
        58 :: (32 :: (pretty 1 (keyJson s.key)).toUTF8.toList) ++
      ([44, 10, 32, 32] ++ (quote "nospam").toUTF8.toList ++
        58 :: (32 :: (Nat.repr s.nospam.toNat).toUTF8.toList) ++
      ([44, 10, 32, 32] ++ (quote "name").toUTF8.toList ++ 58 :: (32 :: (quote s.name).toUTF8.toList) ++
      ([44, 10, 32, 32] ++ (quote "friends").toUTF8.toList ++
        58 :: (32 :: (pretty 1 (.arr (s.friends.map keyJson))).toUTF8.toList) ++ [10, 125])))) := by
  rw [text, toJson, pretty.eq_4 _ _ (List.cons_ne_nil _ _), prettyFields.eq_3 _ _ _ _ (List.cons_ne_nil _ _),
    prettyFields.eq_3 _ _ _ _ (List.cons_ne_nil _ _), prettyFields.eq_3 _ _ _ _ (List.cons_ne_nil _ _),
    prettyFields.eq_2, pretty_nat, pretty_str]
  simp only [Nat.zero_add, toUTF8_toList_append, indent_bytes]
  -- what is left is the bytes of the short texts between the fields
  generalize (quote "public_key").toUTF8.toList = q₁
  generalize (quote "nospam").toUTF8.toList = q₂
  generalize (quote "name").toUTF8.toList = q₃
  generalize (quote "friends").toUTF8.toList = q₄
  generalize (pretty 1 (keyJson s.key)).toUTF8.toList = v₁
  generalize (Nat.repr s.nospam.toNat).toUTF8.toList = v₂
  generalize (quote s.name).toUTF8.toList = v₃
  generalize (pretty 1 (.arr (s.friends.map keyJson))).toUTF8.toList = v₄
  simp only [Text.toUTF8_toList]
  simp [String.utf8EncodeChar]

/-- Every saved state reads back as itself. -/
theorem read_text (s : SavedNode) : read (text s) = .ok s := by
  unfold read
  have hrest : (Cursor.ofString (text s)).rest = (text s).toUTF8.toList := List.drop_zero
  generalize Cursor.ofString (text s) = c at hrest ⊢
  rw [text_bytes] at hrest
  have hskip := skipBlank_of_head hrest (show blankByte 123 = false from rfl)
  have hpeek : c.peek? = some 123 := peek?_of_rest hrest
  -- the cursor after each field stands before the next one
  have h₁ := rest_next hrest
  have h₂ := rest_after_field h₁
  have h₃ := rest_after_field h₂
  have h₄ := rest_after_field h₃
  have h₅ := rest_after_field h₄
  -- the text is longer than the five steps of the object need
  obtain ⟨f, hf⟩ : ∃ f, c.bytes.size + 2 = f + 5 := by
    have hlen := length_rest c
    rw [hrest] at hlen
    simp only [List.length_cons, List.length_append] at hlen
    exact ⟨c.bytes.size - 3, by omega⟩
  simp +decide only [hskip, hpeek]
  rw [hf, fields_field (f + 4) h₁ rfl rfl (readField_key {} s.key _),
    fields_field (f + 3) h₂ rfl rfl (fun c' h' => readField_nospam _ s.nospam _ c' h' rfl),
    fields_field (f + 2) h₃ rfl rfl (readField_name _ s.name _),
    fields_field (f + 1) h₄ rfl rfl (readField_friends _ s.friends _), fields_close f h₅ rfl]
  simp only [bind, Except.bind]
  rw [finish_of_rest]
  · rfl
  · -- after the closing brace the text ends
    rw [rest_skip, h₅]
    rfl

end SavedNode

end Courier
