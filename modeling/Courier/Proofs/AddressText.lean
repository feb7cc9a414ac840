-- Address bytes and address text read back exactly, both ways: the text also in lower case and with
-- blanks around it, and whatever reads as an address is that address's bytes or trimmed text.
import Courier.Address
import Mathlib

namespace Courier

/-! ## UTF-8 bytes of a text -/

namespace Text

theorem byteArray_toList_loop (bs : ByteArray) (i : Nat) (r : List UInt8) :
    ByteArray.toList.loop bs i r = r.reverse ++ bs.data.toList.drop i := by
  fun_induction ByteArray.toList.loop bs i r with
  | case1 i r h ih =>
    rw [ih, List.reverse_cons, List.append_assoc]
    congr 1
    have h' : i < bs.data.toList.length := by simpa using h
    rw [List.drop_eq_getElem_cons h']
    simp [ByteArray.get!, h]
  | case2 i r h =>
    have : bs.data.toList.length ≤ i := by simpa using h
    simp [List.drop_eq_nil_of_le this]

theorem byteArray_toList (bs : ByteArray) : bs.toList = bs.data.toList := by
  rw [ByteArray.toList, byteArray_toList_loop, List.reverse_nil, List.nil_append, List.drop_zero]

/-- The bytes of a text are the UTF-8 encodings of its characters, one after another. -/
theorem toUTF8_toList (s : String) : s.toUTF8.toList = s.toList.flatMap String.utf8EncodeChar := by
  have hs : s.toUTF8 = s.toList.utf8Encode := by
    rw [← String.toByteArray_ofList, String.ofList_toList]
    rfl
  rw [hs, byteArray_toList, List.utf8Encode, List.toList_data_toByteArray]

theorem utf8EncodeChar_of_lt {c : Char} (h : c.toNat < 128) :
    String.utf8EncodeChar c = [c.toNat.toUInt8] := by
  rw [String.utf8EncodeChar_eq_singleton (Char.utf8Size_eq_one_iff.2 (by
    simpa [UInt32.le_iff_toNat_le, Char.toNat_val] using Nat.lt_succ_iff.1 h))]
  rfl

theorem utf8EncodeChar_head_of_le {c : Char} (h : 128 ≤ c.toNat) :
    ∃ b rest, String.utf8EncodeChar c = b :: rest ∧ 192 ≤ b.toNat := by
  have hv : ¬ c.val.toNat ≤ 127 := by rw [Char.toNat_val]; omega
  unfold String.utf8EncodeChar
  simp only [hv, if_false]
  split
  · exact ⟨_, _, rfl, by simp [UInt8.toNat_ofNat']; omega⟩
  · split
    · exact ⟨_, _, rfl, by simp [UInt8.toNat_ofNat']; omega⟩
    · exact ⟨_, _, rfl, by simp [UInt8.toNat_ofNat']; omega⟩

theorem lt_of_encoding_lt {cs : List Char}
    (h : ∀ b ∈ cs.flatMap String.utf8EncodeChar, b.toNat < 128) : ∀ c ∈ cs, c.toNat < 128 := by
  intro c hc
  refine Nat.lt_of_not_le fun hge => ?_
  obtain ⟨b, rest, he, hb⟩ := utf8EncodeChar_head_of_le hge
  have hmem : b ∈ cs.flatMap String.utf8EncodeChar := List.mem_flatMap.2 ⟨c, hc, he ▸ List.mem_cons_self⟩
  exact absurd (h b hmem) (by omega)

theorem flatMap_utf8EncodeChar_of_lt {cs : List Char} (h : ∀ c ∈ cs, c.toNat < 128) :
    cs.flatMap String.utf8EncodeChar = cs.map fun c => c.toNat.toUInt8 := by
  induction cs with
  | nil => rfl
  | cons c cs ih =>
    rw [List.flatMap_cons, List.map_cons, utf8EncodeChar_of_lt (h c List.mem_cons_self),
      ih fun x hx => h x (List.mem_cons_of_mem _ hx)]
    rfl

/-! ## Hex digits in either case -/

theorem toNat_toUpper (c : Char) :
    c.toUpper.toNat = if 97 ≤ c.toNat ∧ c.toNat ≤ 122 then c.toNat - 32 else c.toNat := by
  unfold Char.toUpper
  split
  · rename_i h
    have h' : 97 ≤ c.toNat ∧ c.toNat ≤ 122 := by
      simpa [UInt32.le_iff_toNat_le, Char.toNat_val] using h
    rw [if_pos h']
    simp only [Char.toNat, UInt32.toNat_add]
    simp [Char.toNat_val] at h' ⊢
    omega
  · rename_i h
    have h' : ¬ (97 ≤ c.toNat ∧ c.toNat ≤ 122) := by
      simpa [UInt32.le_iff_toNat_le, Char.toNat_val] using h
    rw [if_neg h']

theorem toNat_toLower (c : Char) :
    c.toLower.toNat = if 65 ≤ c.toNat ∧ c.toNat ≤ 90 then c.toNat + 32 else c.toNat := by
  unfold Char.toLower
  split
  · rename_i h
    have h' : 65 ≤ c.toNat ∧ c.toNat ≤ 90 := by
      simpa [UInt32.le_iff_toNat_le, Char.toNat_val] using h
    rw [if_pos h']
    simp only [Char.toNat, UInt32.toNat_add]
    simp [Char.toNat_val] at h' ⊢
    omega
  · rename_i h
    have h' : ¬ (65 ≤ c.toNat ∧ c.toNat ≤ 90) := by
      simpa [UInt32.le_iff_toNat_le, Char.toNat_val] using h
    rw [if_neg h']

theorem toNat_ofNat_of_lt {n : Nat} (h : n < 0xd800) : (Char.ofNat n).toNat = n := by
  have hv : n.isValidChar := Or.inl h
  simp [Char.ofNat, hv, Char.ofNatAux, Char.toNat]

theorem toNat_hexDigit_upper {v : Nat} (hv : v < 16) :
    (hexDigit true v).toNat = if v < 10 then 48 + v else 55 + v := by
  unfold hexDigit
  split
  · exact toNat_ofNat_of_lt (by omega)
  · show (Char.ofNat (55 + v)).toNat = 55 + v
    exact toNat_ofNat_of_lt (by omega)

/-- The three ranges of digits: 0 to 9, then a to f and A to F. -/
theorem hexValue?_eq_some {b : UInt8} {v : Nat} :
    hexValue? b = some v ↔ (48 ≤ b.toNat ∧ b.toNat ≤ 57 ∧ v = b.toNat - 48) ∨
      (97 ≤ b.toNat ∧ b.toNat ≤ 102 ∧ v = b.toNat - 87) ∨
      (65 ≤ b.toNat ∧ b.toNat ≤ 70 ∧ v = b.toNat - 55) := by
  simp only [hexValue?, Bool.and_eq_true, decide_eq_true_eq]
  split_ifs <;> simp <;> omega

theorem hexValue?_of_toUpper {c : Char} {v : Nat} (hv : v < 16) (h : c.toUpper = hexDigit true v) :
    c.toNat < 128 ∧ hexValue? c.toNat.toUInt8 = some v := by
  have hn := congrArg Char.toNat h
  rw [toNat_toUpper, toNat_hexDigit_upper hv] at hn
  have hlt : c.toNat < 128 := by split at hn <;> split at hn <;> omega
  have hb : c.toNat.toUInt8.toNat = c.toNat := by
    simp only [Nat.toUInt8, UInt8.toNat_ofNat']; omega
  refine ⟨hlt, hexValue?_eq_some.2 ?_⟩
  rw [hb]
  split at hn <;> split at hn <;> omega

theorem hexDigit_of_hexValue? {b : UInt8} {v : Nat} (h : hexValue? b = some v) :
    b.toNat < 128 ∧ v < 16 ∧ hexDigit true v = (Char.ofNat b.toNat).toUpper := by
  have hr := hexValue?_eq_some.1 h
  have hv : b.toNat < 128 ∧ v < 16 := by omega
  refine ⟨hv.1, hv.2, Char.toNat_inj.1 ?_⟩
  rw [toNat_hexDigit_upper hv.2, toNat_toUpper, toNat_ofNat_of_lt (by omega)]
  split <;> split <;> omega

theorem hexPair_ofDigits {h l : Nat} (hh : h < 16) (hl : l < 16) :
    hexPair true (h * 16 + l).toUInt8 = [hexDigit true h, hexDigit true l] := by
  have hb : (h * 16 + l).toUInt8.toNat = h * 16 + l := by
    simp only [Nat.toUInt8, UInt8.toNat_ofNat']; omega
  have hhi : (h * 16 + l) / 16 = h := by omega
  have hlo : (h * 16 + l) % 16 = l := by omega
  simp only [hexPair, hb, hhi, hlo]

/-- Digits that upper-case to the text of some bytes read back as those bytes. -/
theorem readPairs_of_toUpper (i : Nat) :
    ∀ (bs : List UInt8) (cs : List Char), cs.map Char.toUpper = bs.flatMap (hexPair true) →
      readPairs (cs.map fun c => c.toNat.toUInt8) i = .ok bs := by
  intro bs
  induction bs generalizing i with
  | nil =>
    intro cs h
    rw [List.flatMap_nil, List.map_eq_nil_iff] at h
    subst h
    rfl
  | cons b bs ih =>
    intro cs h
    match cs, h with
    | [], h => simp [hexPair] at h
    | [_], h => simp [hexPair] at h
    | c₁ :: c₂ :: cs, h =>
      simp only [List.flatMap_cons, hexPair, List.map_cons, List.cons_append, List.nil_append,
        List.cons.injEq] at h
      obtain ⟨h₁, h₂, hrest⟩ := h
      have hhi : b.toNat / 16 < 16 := by have := b.toNat_lt; omega
      have hlo : b.toNat % 16 < 16 := Nat.mod_lt _ (by omega)
      have hb : (b.toNat / 16 * 16 + b.toNat % 16).toUInt8 = b := by
        rw [show b.toNat / 16 * 16 + b.toNat % 16 = b.toNat by omega]
        exact UInt8.ofNat_toNat
      simp [readPairs, (hexValue?_of_toUpper hhi h₁).2, (hexValue?_of_toUpper hlo h₂).2,
        ih (i + 2) cs hrest, hb, bind, Except.bind, pure, Except.pure]

theorem readPairs_cons_eq_ok {hi lo : UInt8} {rest out : List UInt8} {i : Nat}
    (h : readPairs (hi :: lo :: rest) i = .ok out) :
    ∃ vh vl more, hexValue? hi = some vh ∧ hexValue? lo = some vl ∧
      readPairs rest (i + 2) = .ok more ∧ out = (vh * 16 + vl).toUInt8 :: more := by
  simp only [readPairs] at h
  cases h1 : hexValue? hi <;> cases h2 : hexValue? lo <;> cases h3 : readPairs rest (i + 2) <;>
    simp only [h1, h2, h3, bind, Except.bind, pure, Except.pure] at h <;> cases h
  exact ⟨_, _, _, rfl, rfl, rfl, rfl⟩

/-- What a text of an even number of digits reads as: bytes whose upper-case digits are the
text's bytes put in upper case, one by one; and every byte of the text is below 128. -/
theorem readPairs_spec : ∀ {bs out : List UInt8} {i : Nat}, readPairs bs i = .ok out →
    bs.length % 2 = 0 →
    out.flatMap (hexPair true) = bs.map (fun b => (Char.ofNat b.toNat).toUpper) ∧
      ∀ b ∈ bs, b.toNat < 128
  | [], out, i, h, _ => by
    simp only [readPairs, pure, Except.pure, Except.ok.injEq] at h
    subst h
    simp
  | [_], _, _, _, heven => by simp at heven
  | hi :: lo :: rest, out, i, h, heven => by
    obtain ⟨vh, vl, more, hh, hl, hmore, rfl⟩ := readPairs_cons_eq_ok h
    obtain ⟨hlt₁, hv₁, hc₁⟩ := hexDigit_of_hexValue? hh
    obtain ⟨hlt₂, hv₂, hc₂⟩ := hexDigit_of_hexValue? hl
    -- the rest of the text is read from two places further on
    obtain ⟨ih₁, ih₂⟩ := readPairs_spec hmore (by simp at heven; omega)
    refine ⟨?_, ?_⟩
    · rw [List.flatMap_cons, hexPair_ofDigits hv₁ hv₂, ih₁, hc₁, hc₂]
      rfl
    · intro b hb
      simp only [List.mem_cons] at hb
      rcases hb with rfl | rfl | hb
      · exact hlt₁
      · exact hlt₂
      · exact ih₂ b hb

/-! ## Blanks around a text -/

theorem dropBlank_append_of_blank {pre : List Char} (h : ∀ c ∈ pre, isBlank c = true)
    (rest : List Char) : dropBlank (pre ++ rest) = dropBlank rest := by
  induction pre with
  | nil => rfl
  | cons c pre ih =>
    rw [List.cons_append, dropBlank, List.dropWhile_cons_of_pos (h c List.mem_cons_self)]
    exact ih fun x hx => h x (List.mem_cons_of_mem _ hx)

theorem dropBlank_of_head {c : Char} (h : isBlank c = false) (rest : List Char) :
    dropBlank (c :: rest) = c :: rest :=
  List.dropWhile_cons_of_neg (by simp [h])

/-- Blanks put around a text that neither starts nor ends with one are trimmed off again. -/
theorem trimBlank_around {pre t suf : List Char} (hpre : ∀ c ∈ pre, isBlank c = true)
    (hsuf : ∀ c ∈ suf, isBlank c = true) (ht : ∀ c ∈ t, isBlank c = false) (hne : t ≠ []) :
    trimBlank (String.ofList (pre ++ t ++ suf)) = String.ofList t := by
  obtain ⟨c, cs, rfl⟩ := List.exists_cons_of_ne_nil hne
  obtain ⟨ds, d, hds⟩ := (List.eq_nil_or_concat (c :: cs)).resolve_left hne
  have hd : (c :: cs).reverse = d :: ds.reverse := by rw [hds]; simp
  have hfront : dropBlank (pre ++ (c :: cs) ++ suf) = c :: cs ++ suf := by
    rw [List.append_assoc, dropBlank_append_of_blank hpre, List.cons_append,
      dropBlank_of_head (ht c List.mem_cons_self)]
  have hback : dropBlank (c :: cs ++ suf).reverse = (c :: cs).reverse := by
    rw [List.reverse_append, dropBlank_append_of_blank (fun x hx => hsuf x (List.mem_reverse.1 hx)), hd,
      dropBlank_of_head (ht d (by rw [hds]; simp))]
  rw [trimBlank, String.toList_ofList, hfront, hback, List.reverse_reverse]

/-! ## Texts of hex digits -/

theorem utf8ByteSize_eq_length (s : String) :
    s.utf8ByteSize = (s.toList.flatMap String.utf8EncodeChar).length := by
  rw [← toUTF8_toList, byteArray_toList, Array.length_toList]
  rfl

theorem length_flatMap_hexPair (upper : Bool) (bs : List UInt8) :
    (bs.flatMap (hexPair upper)).length = 2 * bs.length := by
  induction bs with
  | nil => rfl
  | cons b bs ih =>
    rw [List.flatMap_cons, List.length_append, ih]
    simp [hexPair]
    omega

theorem toUpper_hexDigit {v : Nat} (hv : v < 16) : (hexDigit true v).toUpper = hexDigit true v := by
  apply Char.toNat_inj.1
  rw [toNat_toUpper, toNat_hexDigit_upper hv]
  split <;> split <;> omega

theorem toLower_toUpper_hexDigit {v : Nat} (hv : v < 16) :
    (hexDigit true v).toLower.toUpper = hexDigit true v := by
  apply Char.toNat_inj.1
  have hl := toNat_toLower (hexDigit true v)
  rw [toNat_hexDigit_upper hv] at hl
  rw [toNat_toUpper, hl, toNat_hexDigit_upper hv]
  split <;> split <;> split <;> omega

theorem hexDigit_of_mem_flatMap {c : Char} {bs : List UInt8} (h : c ∈ bs.flatMap (hexPair true)) :
    ∃ v < 16, c = hexDigit true v := by
  obtain ⟨b, -, hb⟩ := List.mem_flatMap.1 h
  have hlt := b.toNat_lt
  simp only [hexPair, List.mem_cons, List.not_mem_nil, or_false] at hb
  rcases hb with rfl | rfl
  · exact ⟨b.toNat / 16, by omega, rfl⟩
  · exact ⟨b.toNat % 16, by omega, rfl⟩

theorem isBlank_of_hexValue? {c : Char} {v : Nat} (hlt : c.toNat < 128)
    (h : hexValue? c.toNat.toUInt8 = some v) : isBlank c = false := by
  have hb : c.toNat.toUInt8.toNat = c.toNat := by
    simp only [Nat.toUInt8, UInt8.toNat_ofNat']; omega
  have hr := hexValue?_eq_some.1 h
  rw [hb] at hr
  simp only [isBlank, Bool.or_eq_false_iff, Bool.and_eq_false_iff, decide_eq_false_iff_not,
    beq_eq_false_iff_ne, ne_eq]
  omega

end Text

/-! ## Bytes of an address -/

@[simp] theorem beBytes32_length (n : UInt32) : (beBytes32 n).length = 4 := rfl

theorem ofBeBytes_beBytes32 (n : UInt32) : ofBeBytes (beBytes32 n) = n.toNat := by
  have h := n.toNat_lt
  simp only [ofBeBytes, beBytes32, List.foldl, UInt32.toNat_toUInt8, UInt32.toNat_shiftRight,
    Nat.shiftRight_eq_div_pow, UInt32.reduceToNat, Nat.reduceMod, Nat.reducePow] at h ⊢
  omega

theorem beBytes32_ofBeBytes {l : List UInt8} (hl : l.length = 4) :
    beBytes32 (ofBeBytes l).toUInt32 = l := by
  match l, hl with
  | [a, b, c, d], _ =>
    have ha := a.toNat_lt
    have hb := b.toNat_lt
    have hc := c.toNat_lt
    have hd := d.toNat_lt
    simp only [ofBeBytes, beBytes32, List.foldl, List.cons.injEq, and_true]
    simp only [← UInt8.toNat_inj, UInt32.toNat_toUInt8, UInt32.toNat_shiftRight, Nat.toUInt32,
      UInt32.toNat_ofNat', Nat.shiftRight_eq_div_pow, UInt32.reduceToNat, Nat.reduceMod,
      Nat.reducePow] at ha hb hc hd ⊢
    omega

theorem ofBeBytes_checksum (c : UInt16) : ofBeBytes [(c >>> 8).toUInt8, c.toUInt8] = c.toNat := by
  have h := c.toNat_lt
  simp only [ofBeBytes, List.foldl, UInt16.toNat_toUInt8, UInt16.toNat_shiftRight,
    Nat.shiftRight_eq_div_pow, UInt16.reduceToNat, Nat.reduceMod, Nat.reducePow] at h ⊢
  omega

theorem checksum_bytes_of_ofBeBytes {c : UInt16} {l : List UInt8} (hl : l.length = 2)
    (h : c.toNat = ofBeBytes l) : [(c >>> 8).toUInt8, c.toUInt8] = l := by
  match l, hl with
  | [a, b], _ =>
    have ha := a.toNat_lt
    have hb := b.toNat_lt
    simp only [ofBeBytes, List.foldl] at h
    simp only [List.cons.injEq, and_true, ← UInt8.toNat_inj, UInt16.toNat_toUInt8,
      UInt16.toNat_shiftRight, Nat.shiftRight_eq_div_pow, UInt16.reduceToNat, Nat.reduceMod,
      Nat.reducePow] at ha hb ⊢
    omega

namespace Address

@[simp] theorem toBytes_length (a : Address) : a.toBytes.length = 38 := by
  simp [toBytes, a.key.length_eq]

theorem toBytes_parts (a : Address) :
    a.toBytes.take 32 = a.key.bytes ∧ (a.toBytes.drop 32).take 4 = beBytes32 a.nospam ∧
      a.toBytes.drop 36 = [(a.checksum >>> 8).toUInt8, a.checksum.toUInt8] := by
  have hk := a.key.length_eq
  refine ⟨?_, ?_, ?_⟩
  · simp [toBytes, List.take_left' hk]
  · simp [toBytes, List.drop_left' hk, List.take_left' (beBytes32_length a.nospam)]
  · rw [toBytes, List.append_assoc, show 36 = 32 + 4 from rfl, ← List.drop_drop, List.drop_left' hk,
      List.drop_left' (beBytes32_length a.nospam)]

/-- The bytes of an address read back as that address. -/
theorem ofBytes_toBytes (k : PublicKey) (n : UInt32) :
    ofBytes (new k n).toBytes = .ok (new k n) := by
  obtain ⟨hkey, hnospam, hcheck⟩ := toBytes_parts (new k n)
  have hk : (⟨(new k n).toBytes.take 32, by simp⟩ : PublicKey) = k := by
    cases k
    simp only [PublicKey.mk.injEq]
    exact hkey
  have hn : (ofBeBytes (((new k n).toBytes.drop 32).take 4)).toUInt32 = n := by
    rw [hnospam, ofBeBytes_beBytes32]
    exact UInt32.ofNat_toNat
  simp only [ofBytes, toBytes_length, dite_true, hk, hn, hcheck, ofBeBytes_checksum]
  simp [new]

/-- Bytes that read as an address are that address's bytes. -/
theorem toBytes_of_ofBytes {bs : List UInt8} {a : Address} (h : ofBytes bs = .ok a) :
    a.toBytes = bs := by
  unfold ofBytes at h
  split at h
  · rename_i hlen
    dsimp only at h
    split at h
    · rename_i hsum
      cases h
      rw [toBytes, checksum_bytes_of_ofBeBytes (by simp [hlen]) (beq_iff_eq.1 hsum), new]
      dsimp only
      rw [beBytes32_ofBeBytes (by simp [hlen]), show 36 = 32 + 4 from rfl, ← List.drop_drop,
        List.append_assoc, List.take_append_drop, List.take_append_drop]
    · cases h
  · cases h

theorem hex_toList (a : Address) : a.hex.toList = a.toBytes.flatMap (Text.hexPair true) := by
  rw [hex, Text.hexOf, String.toList_ofList]

/-- The text of an address reads back as that address, with any of its letters in lower case
(any text that upper-cases to it) and with blanks before and after it. -/
theorem parse_around (k : PublicKey) (n : UInt32) {pre t suf : String}
    (hpre : ∀ c ∈ pre.toList, Text.isBlank c = true) (hsuf : ∀ c ∈ suf.toList, Text.isBlank c = true)
    (ht : t.toUpper = (new k n).hex) : parse (pre ++ t ++ suf) = .ok (new k n) := by
  have hmap : t.toList.map Char.toUpper = (new k n).toBytes.flatMap (Text.hexPair true) := by
    rw [← hex_toList, ← ht, String.toUpper, String.toList_map]
  -- every character of the text is a digit in one case or the other
  have hdigit : ∀ c ∈ t.toList, c.toNat < 128 ∧ ∃ v, Text.hexValue? c.toNat.toUInt8 = some v := by
    intro c hc
    obtain ⟨v, hv, hcv⟩ := Text.hexDigit_of_mem_flatMap (hmap ▸ List.mem_map_of_mem hc)
    obtain ⟨hlt, hval⟩ := Text.hexValue?_of_toUpper hv hcv
    exact ⟨hlt, v, hval⟩
  have hascii : ∀ c ∈ t.toList, c.toNat < 128 := fun c hc => (hdigit c hc).1
  have hbytes : t.toUTF8.toList = t.toList.map fun c => c.toNat.toUInt8 := by
    rw [Text.toUTF8_toList, Text.flatMap_utf8EncodeChar_of_lt hascii]
  have hlen : t.toList.length = 76 := by
    have h := congrArg List.length hmap
    rwa [List.length_map, Text.length_flatMap_hexPair, toBytes_length] at h
  have htrim : Text.trimBlank (pre ++ t ++ suf) = t := by
    have hne : t.toList ≠ [] := by intro h; rw [h] at hlen; cases hlen
    have hnb : ∀ c ∈ t.toList, Text.isBlank c = false := fun c hc =>
      Text.isBlank_of_hexValue? (hdigit c hc).1 (hdigit c hc).2.choose_spec
    have hs : pre ++ t ++ suf = String.ofList (pre.toList ++ t.toList ++ suf.toList) := by
      apply String.ext
      simp
    rw [hs, Text.trimBlank_around hpre hsuf hnb hne, String.ofList_toList]
  have hsize : t.utf8ByteSize = 76 := by
    rw [Text.utf8ByteSize_eq_length, Text.flatMap_utf8EncodeChar_of_lt hascii, List.length_map, hlen]
  have hread : Text.readHex t = .ok (new k n).toBytes := by
    rw [Text.readHex, hbytes, List.length_map, hlen, if_neg (by decide)]
    exact Text.readPairs_of_toUpper 0 _ _ hmap
  simp only [parse, htrim, hsize, bne_self_eq_false, hread]
  exact ofBytes_toBytes k n

/-- A text that reads as an address is that address's text, once trimmed and put in upper case. -/
theorem hex_of_parse {s : String} {a : Address} (h : parse s = .ok a) :
    a.hex = (Text.trimBlank s).toUpper := by
  unfold parse at h
  generalize Text.trimBlank s = t at h ⊢
  dsimp only at h
  split at h
  · cases h
  · split at h
    · cases h
    · rename_i bs hread
      unfold Text.readHex at hread
      dsimp only at hread
      split at hread
      · cases hread
      · rename_i hodd
        have heven : t.toUTF8.toList.length % 2 = 0 := by simpa using hodd
        obtain ⟨hdigits, hlt⟩ := Text.readPairs_spec hread heven
        rw [Text.toUTF8_toList] at hdigits hlt
        have hascii := Text.lt_of_encoding_lt hlt
        rw [Text.flatMap_utf8EncodeChar_of_lt hascii, List.map_map] at hdigits
        apply String.ext
        rw [hex_toList, toBytes_of_ofBytes h, hdigits, String.toUpper, String.toList_map]
        apply List.map_congr_left
        intro c hc
        have hb : c.toNat.toUInt8.toNat = c.toNat := by
          have := hascii c hc
          simp only [Nat.toUInt8, UInt8.toNat_ofNat']; omega
        simp only [Function.comp, hb, Char.ofNat_toNat]

theorem hex_toUpper (a : Address) : a.hex.toUpper = a.hex := by
  have hfix : ∀ c ∈ a.hex.toList, Char.toUpper c = id c := by
    intro c hc
    rw [hex_toList] at hc
    obtain ⟨v, hv, rfl⟩ := Text.hexDigit_of_mem_flatMap hc
    exact Text.toUpper_hexDigit hv
  apply String.ext
  rw [String.toUpper, String.toList_map, List.map_congr_left hfix, List.map_id]

/-- Both forms of an address read back as the address they were written from, and nothing else
reads as it: its 38 bytes; its text, as written, with any of its letters in lower case, and with
blanks around it. Bytes that read as an address are its bytes, and a text that reads as an
address is its text once trimmed and put in upper case. -/
theorem bytes_and_text_round_trip :
    (∀ (k : PublicKey) (n : UInt32), ofBytes (new k n).toBytes = .ok (new k n)) ∧
    (∀ (k : PublicKey) (n : UInt32), parse (new k n).hex = .ok (new k n)) ∧
    (∀ (k : PublicKey) (n : UInt32) (pre t suf : String),
      (∀ c ∈ pre.toList, Text.isBlank c = true) → (∀ c ∈ suf.toList, Text.isBlank c = true) →
      t.toUpper = (new k n).hex → parse (pre ++ t ++ suf) = .ok (new k n)) ∧
    (∀ (bs : List UInt8) (a : Address), ofBytes bs = .ok a → a.toBytes = bs) ∧
    (∀ (s : String) (a : Address), parse s = .ok a → a.hex = (Text.trimBlank s).toUpper) := by
  refine ⟨ofBytes_toBytes, fun k n => ?_, fun k n _ _ _ hpre hsuf ht => parse_around k n hpre hsuf ht,
    fun _ _ h => toBytes_of_ofBytes h, fun _ _ h => hex_of_parse h⟩
  have h := @parse_around k n "" (new k n).hex "" (by simp) (by simp) (hex_toUpper _)
  rwa [String.empty_append, String.append_empty] at h

theorem hex_toLower_toUpper (a : Address) : a.hex.toLower.toUpper = a.hex := by
  have hback : ∀ c ∈ a.hex.toList, (Char.toUpper ∘ Char.toLower) c = id c := by
    intro c hc
    rw [hex_toList] at hc
    obtain ⟨v, hv, rfl⟩ := Text.hexDigit_of_mem_flatMap hc
    exact Text.toLower_toUpper_hexDigit hv
  apply String.ext
  rw [String.toUpper, String.toList_map, String.toLower, String.toList_map, List.map_map,
    List.map_congr_left hback, List.map_id]

/-- A text in lower case, with blanks before and after it, reads as the address it spells. -/
theorem lower_case_text_with_blanks_reads_back :
    parse (" \t" ++ (new (PublicKey.replicate 0xab) 0x1234abcd).hex.toLower ++ "\n") =
      .ok (new (PublicKey.replicate 0xab) 0x1234abcd) :=
  bytes_and_text_round_trip.2.2.1 _ _ _ _ _ (by simp [Text.isBlank]) (by simp [Text.isBlank])
    (hex_toLower_toUpper _)

end Address

end Courier
