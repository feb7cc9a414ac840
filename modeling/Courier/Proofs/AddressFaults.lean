-- Which fault an address text is refused for: a length fault, else a digit fault, else a checksum
-- fault, each exactly when the ones before are absent. One changed byte or hex digit of an address is
-- always caught by the checksum.
import Courier.Proofs.AddressText

namespace Courier

/-! ## The checksum as a loop over places -/

/-- One turn of the checksum loop: the byte at place `i` is xored into the first byte of the pair
when `i` is even and into the second when it is odd. -/
def parityStep (acc : UInt8 × UInt8) (p : UInt8 × Nat) : UInt8 × UInt8 :=
  if p.2 % 2 = 0 then (acc.1 ^^^ p.1, acc.2) else (acc.1, acc.2 ^^^ p.1)

/-- The checksum's two bytes as the loop over the places of the bytes computes them. -/
def parityFold (bs : List UInt8) : UInt8 × UInt8 := bs.zipIdx.foldl parityStep (0, 0)

theorem foldPairs_cons_cons (a b : UInt8) (rest : List UInt8) :
    foldPairs (a :: b :: rest) = (a ^^^ (foldPairs rest).1, b ^^^ (foldPairs rest).2) := rfl

theorem foldl_parityStep_zipIdx : ∀ (bs : List UInt8) (acc : UInt8 × UInt8) {k : Nat}, k % 2 = 0 →
    (bs.zipIdx k).foldl parityStep acc = (acc.1 ^^^ (foldPairs bs).1, acc.2 ^^^ (foldPairs bs).2)
  | a :: b :: rest, acc, k, hk => by
    have hk' : ¬ (k + 1) % 2 = 0 := by omega
    -- two places further on the loop is at an even place again
    rw [List.zipIdx_cons, List.zipIdx_cons, List.foldl_cons, List.foldl_cons,
      foldl_parityStep_zipIdx rest _ (show (k + 1 + 1) % 2 = 0 by omega), foldPairs_cons_cons]
    simp only [parityStep, hk, hk', if_true, if_false, UInt8.xor_assoc]
  | [a], acc, k, hk => by simp [parityStep, hk, foldPairs]
  | [], acc, _, _ => by simp [foldPairs]

theorem parityFold_eq_foldPairs (bs : List UInt8) : parityFold bs = foldPairs bs := by
  rw [parityFold, foldl_parityStep_zipIdx bs (0, 0) (Nat.zero_mod 2)]
  simp

/-- Changing one byte changes the fold: a byte is xored into one half of the pair, and xor with
a fixed value is one to one. -/
theorem foldPairs_set_ne : ∀ {bs : List UInt8} {i : Nat} {x : UInt8},
    bs.set i x ≠ bs → foldPairs (bs.set i x) ≠ foldPairs bs
  | [], _, _, hne => absurd rfl hne
  | [a], 0, x, hne => by
    have hx : x ≠ a := fun h => hne (by rw [h]; rfl)
    simpa [foldPairs] using hx
  | [_], _ + 1, _, hne => absurd rfl hne
  | a :: b :: rest, 0, x, hne => by
    have hx : x ≠ a := fun h => hne (by rw [h]; rfl)
    simpa [foldPairs_cons_cons] using hx
  | a :: b :: rest, 1, x, hne => by
    have hx : x ≠ b := fun h => hne (by rw [h]; rfl)
    simpa [foldPairs_cons_cons] using hx
  | a :: b :: rest, i + 2, x, hne => by
    have hrest : rest.set i x ≠ rest := fun h => hne (by simp [h])
    have ih := foldPairs_set_ne hrest
    intro heq
    simp only [List.set_cons_succ, foldPairs_cons_cons, Prod.mk.injEq, UInt8.xor_right_inj] at heq
    exact ih (Prod.ext heq.1 heq.2)

namespace Address

/-- Bytes whose last two are the checksum of the 36 before them, as the loop computes it. -/
def Sealed (bs : List UInt8) : Prop :=
  bs.drop 36 = [(parityFold (bs.take 36)).1, (parityFold (bs.take 36)).2]

instance : DecidablePred Sealed := fun _ => inferInstanceAs (Decidable (_ = _))

theorem not_sealed_set {bs : List UInt8} {i : Nat} {x : UInt8} (hs : Sealed bs)
    (hne : bs.set i x ≠ bs) : ¬ Sealed (bs.set i x) := by
  intro hs'
  unfold Sealed at hs hs'
  by_cases hi : i < 36
  · -- a folded byte changed, and the last two stayed
    have htake : (bs.set i x).take 36 = (bs.take 36).set i x := List.take_set
    have hdrop : (bs.set i x).drop 36 = bs.drop 36 := List.drop_set_of_lt hi
    have hne' : (bs.take 36).set i x ≠ bs.take 36 := by
      intro h
      apply hne
      rw [← List.take_append_drop 36 (bs.set i x), htake, h, hdrop, List.take_append_drop]
    have hfold : parityFold ((bs.take 36).set i x) = parityFold (bs.take 36) := by
      rw [htake, hdrop, hs] at hs'
      simp only [List.cons.injEq, and_true] at hs'
      exact Prod.ext hs'.1.symm hs'.2.symm
    rw [parityFold_eq_foldPairs, parityFold_eq_foldPairs] at hfold
    exact foldPairs_set_ne hne' hfold
  · -- a checksum byte changed, and the folded bytes stayed
    have htake : (bs.set i x).take 36 = bs.take 36 := List.take_set_of_le (by omega)
    apply hne
    calc bs.set i x = (bs.set i x).take 36 ++ (bs.set i x).drop 36 := (List.take_append_drop _ _).symm
      _ = bs.take 36 ++ bs.drop 36 := by rw [hs', htake, hs]
      _ = bs := List.take_append_drop _ _

/-! ## Reading 38 bytes -/

theorem ofBeBytes_pair (x y : UInt8) : ofBeBytes [x, y] = x.toNat * 256 + y.toNat := by
  simp [ofBeBytes]

theorem checksumOf_toNat (k : PublicKey) (n : UInt32) :
    (checksumOf k n).toNat =
      (foldPairs (k.bytes ++ beBytes32 n)).1.toNat * 256 + (foldPairs (k.bytes ++ beBytes32 n)).2.toNat := by
  unfold checksumOf
  rcases foldPairs (k.bytes ++ beBytes32 n) with ⟨hi, lo⟩
  have hhi := hi.toNat_lt
  have hlo := lo.toNat_lt
  simp only [UInt16.toNat_add, UInt16.toNat_mul, UInt8.toNat_toUInt16, UInt16.reduceToNat]
  omega

/-- The checksum that 38 bytes carry agrees with the one computed from their key and nospam
exactly when they are sealed. -/
theorem checksum_matches_iff {bs : List UInt8} (hlen : bs.length = 38) {k : PublicKey}
    (hk : k.bytes = bs.take 32) :
    (new k (ofBeBytes ((bs.drop 32).take 4)).toUInt32).checksum.toNat = ofBeBytes (bs.drop 36) ↔
      Sealed bs := by
  have hnospam : beBytes32 (ofBeBytes ((bs.drop 32).take 4)).toUInt32 = (bs.drop 32).take 4 :=
    beBytes32_ofBeBytes (by simp [hlen])
  have hfolded : k.bytes ++ beBytes32 (ofBeBytes ((bs.drop 32).take 4)).toUInt32 = bs.take 36 := by
    rw [hk, hnospam, show 36 = 32 + 4 from rfl, List.take_add]
  obtain ⟨x, y, hxy⟩ : ∃ x y, bs.drop 36 = [x, y] := by
    match h : bs.drop 36 with
    | [x, y] => exact ⟨x, y, rfl⟩
    | [] | [_] | _ :: _ :: _ :: _ => have := congrArg List.length h; simp [hlen] at this
  have hx := x.toNat_lt
  have hy := y.toNat_lt
  have hhi := (foldPairs (bs.take 36)).1.toNat_lt
  have hlo := (foldPairs (bs.take 36)).2.toNat_lt
  simp only [new, checksumOf_toNat, hfolded, hxy, ofBeBytes_pair, Sealed, parityFold_eq_foldPairs,
    List.cons.injEq, and_true, ← UInt8.toNat_inj]
  omega

/-- Thirty-eight bytes read as an address when they are sealed, and as a checksum fault when
they are not. -/
theorem ofBytes_cases {bs : List UInt8} (hlen : bs.length = 38) :
    (Sealed bs ∧ ∃ a, ofBytes bs = .ok a) ∨ (¬ Sealed bs ∧ ofBytes bs = .error .checksum) := by
  unfold ofBytes
  rw [dif_pos hlen]
  dsimp only
  by_cases hs : Sealed bs
  · exact .inl ⟨hs, _, if_pos (beq_iff_eq.2 ((checksum_matches_iff hlen rfl).2 hs))⟩
  · exact .inr ⟨hs, if_neg fun h => hs ((checksum_matches_iff hlen rfl).1 (beq_iff_eq.1 h))⟩

theorem sealed_of_ofBytes {bs : List UInt8} {a : Address} (h : ofBytes bs = .ok a) :
    bs.length = 38 ∧ Sealed bs := by
  have hlen : bs.length = 38 := by rw [← toBytes_of_ofBytes h, toBytes_length]
  refine ⟨hlen, ?_⟩
  rcases ofBytes_cases hlen with ⟨hs, -⟩ | ⟨-, he⟩
  · exact hs
  · rw [he] at h; cases h

theorem ofBytes_set {bs : List UInt8} {a : Address} (h : ofBytes bs = .ok a) {i : Nat} {x : UInt8}
    (hne : bs.set i x ≠ bs) : ofBytes (bs.set i x) = .error .checksum := by
  obtain ⟨hlen, hs⟩ := sealed_of_ofBytes h
  have hlen' : (bs.set i x).length = 38 := by rw [List.length_set, hlen]
  rcases ofBytes_cases hlen' with ⟨hs', -⟩ | ⟨-, he⟩
  · exact absurd hs' (not_sealed_set hs hne)
  · exact he

end Address

/-! ## Hex digits and the bytes a text spells -/

namespace Text

theorem isHexDigit_iff {c : Char} :
    c.isHexDigit = true ↔ c.toNat < 128 ∧ (hexValue? c.toNat.toUInt8).isSome := by
  have hdigit : c.isHexDigit = true ↔ (48 ≤ c.toNat ∧ c.toNat ≤ 57) ∨
      (97 ≤ c.toNat ∧ c.toNat ≤ 102) ∨ (65 ≤ c.toNat ∧ c.toNat ≤ 70) := by
    simp [Char.isHexDigit, Char.isDigit, UInt32.le_iff_toNat_le, Char.toNat_val, or_assoc]
  rw [hdigit]
  constructor
  · intro h
    have hb : c.toNat.toUInt8.toNat = c.toNat := by
      simp only [Nat.toUInt8, UInt8.toNat_ofNat']; omega
    refine ⟨by omega, ?_⟩
    simp only [hexValue?, hb]
    split_ifs with h₁ h₂ h₃
    · rfl
    · rfl
    · rfl
    · simp only [Bool.and_eq_true, decide_eq_true_eq] at h₁ h₂ h₃
      omega
  · rintro ⟨hlt, hsome⟩
    obtain ⟨v, hv⟩ := Option.isSome_iff_exists.1 hsome
    have hb : c.toNat.toUInt8.toNat = c.toNat := by
      simp only [Nat.toUInt8, UInt8.toNat_ofNat']; omega
    have hr := hexValue?_eq_some.1 hv
    rw [hb] at hr
    omega

theorem isBlank_of_isHexDigit {c : Char} (h : c.isHexDigit = true) : isBlank c = false := by
  obtain ⟨hlt, hsome⟩ := isHexDigit_iff.1 h
  obtain ⟨v, hv⟩ := Option.isSome_iff_exists.1 hsome
  exact isBlank_of_hexValue? hlt hv

theorem bytes_digits_iff (t : String) :
    (∀ b ∈ t.toUTF8.toList, (hexValue? b).isSome) ↔ ∀ c ∈ t.toList, c.isHexDigit = true := by
  rw [toUTF8_toList]
  constructor
  · intro h
    -- every byte is below 128, so every character is one byte of its own value
    have hascii : ∀ c ∈ t.toList, c.toNat < 128 := lt_of_encoding_lt fun b hb => by
      obtain ⟨v, hv⟩ := Option.isSome_iff_exists.1 (h b hb)
      exact (hexDigit_of_hexValue? hv).1
    rw [flatMap_utf8EncodeChar_of_lt hascii] at h
    intro c hc
    exact isHexDigit_iff.2 ⟨hascii c hc, h _ (List.mem_map_of_mem hc)⟩
  · intro h
    have hascii : ∀ c ∈ t.toList, c.toNat < 128 := fun c hc => (isHexDigit_iff.1 (h c hc)).1
    rw [flatMap_utf8EncodeChar_of_lt hascii]
    intro b hb
    obtain ⟨c, hc, rfl⟩ := List.mem_map.1 hb
    exact (isHexDigit_iff.1 (h c hc)).2

theorem readPairs_ok_iff : ∀ {bs : List UInt8} {i : Nat}, bs.length % 2 = 0 →
    ((∃ out, readPairs bs i = .ok out) ↔ ∀ b ∈ bs, (hexValue? b).isSome)
  | [], i, _ => by simp [readPairs, pure, Except.pure]
  | [_], _, heven => by simp at heven
  | hi :: lo :: rest, i, heven => by
    have ih := @readPairs_ok_iff rest (i + 2) (by simp at heven; omega)
    constructor
    · rintro ⟨out, h⟩
      obtain ⟨vh, vl, more, hh, hl, hmore, -⟩ := readPairs_cons_eq_ok h
      intro b hb
      simp only [List.mem_cons] at hb
      rcases hb with rfl | rfl | hb
      · simp [hh]
      · simp [hl]
      · exact ih.1 ⟨more, hmore⟩ b hb
    · intro h
      obtain ⟨vh, hh⟩ := Option.isSome_iff_exists.1 (h hi (by simp))
      obtain ⟨vl, hl⟩ := Option.isSome_iff_exists.1 (h lo (by simp))
      obtain ⟨more, hmore⟩ := ih.2 fun b hb => h b (by simp [hb])
      simp [readPairs, hh, hl, hmore, bind, Except.bind, pure, Except.pure]

theorem digits_of_spells {t : String} {bs : List UInt8} (h : t.toUpper = hexOf true bs) :
    (∀ c ∈ t.toList, c.isHexDigit = true) ∧ t.toList.length = 2 * bs.length := by
  have hmap : t.toList.map Char.toUpper = bs.flatMap (hexPair true) := by
    rw [← String.toList_map, ← String.toUpper, h, hexOf, String.toList_ofList]
  refine ⟨fun c hc => ?_, ?_⟩
  · obtain ⟨v, hv, hcv⟩ := hexDigit_of_mem_flatMap (hmap ▸ List.mem_map_of_mem hc)
    obtain ⟨hlt, hval⟩ := hexValue?_of_toUpper hv hcv
    exact isHexDigit_iff.2 ⟨hlt, by simp [hval]⟩
  · rw [← length_flatMap_hexPair true, ← hmap, List.length_map]

theorem utf8ByteSize_of_digits {t : String} (h : ∀ c ∈ t.toList, c.isHexDigit = true) :
    t.utf8ByteSize = t.toList.length := by
  rw [utf8ByteSize_eq_length, flatMap_utf8EncodeChar_of_lt fun c hc => (isHexDigit_iff.1 (h c hc)).1,
    List.length_map]

theorem trimBlank_of_digits {t : String} (h : ∀ c ∈ t.toList, c.isHexDigit = true)
    (hne : t.toList ≠ []) : trimBlank t = t := by
  have ht := @trimBlank_around [] t.toList [] (by simp) (by simp)
    (fun c hc => isBlank_of_isHexDigit (h c hc)) hne
  rwa [List.nil_append, List.append_nil, String.ofList_toList] at ht

/-- Reading bytes from a text gives the bytes it spells, and only those. -/
theorem readHex_eq_ok_iff {t : String} {bs : List UInt8} :
    readHex t = .ok bs ↔ t.toUpper = hexOf true bs := by
  constructor
  · intro h
    unfold readHex at h
    dsimp only at h
    split at h
    · cases h
    · rename_i hodd
      have heven : t.toUTF8.toList.length % 2 = 0 := by simpa using hodd
      obtain ⟨hdigits, hlt⟩ := readPairs_spec h heven
      rw [toUTF8_toList] at hdigits hlt
      have hascii := lt_of_encoding_lt hlt
      rw [flatMap_utf8EncodeChar_of_lt hascii, List.map_map] at hdigits
      apply String.ext
      rw [hexOf, String.toList_ofList, hdigits, String.toUpper, String.toList_map]
      apply List.map_congr_left
      intro c hc
      have hb : c.toNat.toUInt8.toNat = c.toNat := by
        have := hascii c hc
        simp only [Nat.toUInt8, UInt8.toNat_ofNat']; omega
      simp only [Function.comp, hb, Char.ofNat_toNat]
  · intro h
    obtain ⟨hdigits, hlen⟩ := digits_of_spells h
    have hascii : ∀ c ∈ t.toList, c.toNat < 128 := fun c hc => (isHexDigit_iff.1 (hdigits c hc)).1
    have hmap : t.toList.map Char.toUpper = bs.flatMap (hexPair true) := by
      rw [← String.toList_map, ← String.toUpper, h, hexOf, String.toList_ofList]
    rw [readHex, toUTF8_toList, flatMap_utf8EncodeChar_of_lt hascii, List.length_map, hlen,
      if_neg (by simp)]
    exact readPairs_of_toUpper 0 _ _ hmap

theorem exists_spelled {t : String} (h : ∀ c ∈ t.toList, c.isHexDigit = true)
    (heven : t.toList.length % 2 = 0) : ∃ bs, t.toUpper = hexOf true bs := by
  have hbytes : t.toUTF8.toList.length = t.toList.length := by
    rw [toUTF8_toList, flatMap_utf8EncodeChar_of_lt fun c hc => (isHexDigit_iff.1 (h c hc)).1,
      List.length_map]
  obtain ⟨bs, hbs⟩ := (@readPairs_ok_iff _ 0 (hbytes ▸ heven)).2 ((bytes_digits_iff t).2 h)
  refine ⟨bs, readHex_eq_ok_iff.1 ?_⟩
  rw [readHex, if_neg (by rw [hbytes, heven]; decide), hbs]

theorem hexPair_injective {a b : UInt8} (h : hexPair true a = hexPair true b) : a = b := by
  simp only [hexPair, List.cons.injEq, and_true] at h
  have ha := a.toNat_lt
  have hb := b.toNat_lt
  have h₁ := congrArg Char.toNat h.1
  have h₂ := congrArg Char.toNat h.2
  rw [toNat_hexDigit_upper (by omega), toNat_hexDigit_upper (by omega)] at h₁ h₂
  apply UInt8.toNat_inj.1
  split at h₁ <;> split at h₁ <;> split at h₂ <;> split at h₂ <;> omega

/-- The hex text of bytes determines them. -/
theorem flatMap_hexPair_injective : ∀ {bs bs' : List UInt8},
    bs.flatMap (hexPair true) = bs'.flatMap (hexPair true) → bs = bs'
  | [], [], _ => rfl
  | [], _ :: _, h => by simp [hexPair] at h
  | _ :: _, [], h => by simp [hexPair] at h
  | a :: as, b :: bs, h => by
    rw [List.flatMap_cons, List.flatMap_cons] at h
    obtain ⟨hhead, hrest⟩ := List.append_inj h (by simp [hexPair])
    rw [hexPair_injective hhead, flatMap_hexPair_injective hrest]

theorem flatMap_hexPair_set : ∀ {bs bs' : List UInt8} {i : Nat} {d : Char},
    bs'.flatMap (hexPair true) = (bs.flatMap (hexPair true)).set i d → ∃ x, bs' = bs.set (i / 2) x
  | [], bs', i, d, h => by
    rw [List.flatMap_nil, List.set_nil, ← @List.flatMap_nil _ _ (hexPair true)] at h
    exact ⟨0, flatMap_hexPair_injective h⟩
  | b :: bs, [], i, d, h => by
    have hl := congrArg List.length h
    simp [hexPair] at hl
  | b :: bs, b' :: bs', i, d, h => by
    rw [List.flatMap_cons, List.flatMap_cons, List.set_append] at h
    split at h
    · -- the changed place is one of the two digits of the first byte
      rename_i hi
      obtain ⟨-, hrest⟩ := List.append_inj h (by simp [hexPair])
      have hzero : i / 2 = 0 := by simp [hexPair] at hi; omega
      exact ⟨b', by rw [flatMap_hexPair_injective hrest, hzero]; rfl⟩
    · rename_i hi
      obtain ⟨hhead, hrest⟩ := List.append_inj h (by simp [hexPair])
      obtain ⟨x, hx⟩ := flatMap_hexPair_set hrest
      have hnext : i / 2 = (i - (hexPair true b).length) / 2 + 1 := by simp [hexPair] at hi ⊢; omega
      exact ⟨x, by rw [hexPair_injective hhead, hx, hnext]; rfl⟩

/-- One hex digit of a text changed: the new text spells the old text's bytes with the byte of
that digit changed. -/
theorem spells_set {t : String} {bs : List UInt8} (ht : t.toUpper = hexOf true bs) (i : Nat)
    {c : Char} (hc : c.isHexDigit = true) :
    ∃ x, (String.ofList (t.toList.set i c)).toUpper = hexOf true (bs.set (i / 2) x) := by
  obtain ⟨hdigits, hlen⟩ := digits_of_spells ht
  have hdigits' : ∀ d ∈ (String.ofList (t.toList.set i c)).toList, d.isHexDigit = true := by
    intro d hd
    rw [String.toList_ofList] at hd
    rcases List.mem_or_eq_of_mem_set hd with hd | rfl
    · exact hdigits d hd
    · exact hc
  obtain ⟨bs', hbs'⟩ := exists_spelled hdigits' (by simp [hlen])
  have hset : bs'.flatMap (hexPair true) = (bs.flatMap (hexPair true)).set i c.toUpper := by
    have h' := congrArg String.toList hbs'
    rw [String.toUpper, String.toList_map, String.toList_ofList, List.map_set, hexOf,
      String.toList_ofList] at h'
    rw [← h', ← String.toList_map, ← String.toUpper, ht, hexOf, String.toList_ofList]
  obtain ⟨x, rfl⟩ := flatMap_hexPair_set hset
  exact ⟨x, hbs'⟩

/-- A text of an even number of bytes reads without a digit fault exactly when its characters
are all hex digits. -/
theorem readHex_ok_iff_digits {t : String} (heven : t.utf8ByteSize % 2 = 0) :
    (∃ bs, readHex t = .ok bs) ↔ ∀ c ∈ t.toList, c.isHexDigit = true := by
  constructor
  · rintro ⟨bs, h⟩
    exact (digits_of_spells (readHex_eq_ok_iff.1 h)).1
  · intro h
    obtain ⟨bs, hbs⟩ := exists_spelled h (by rwa [← utf8ByteSize_of_digits h])
    exact ⟨bs, readHex_eq_ok_iff.2 hbs⟩

end Text

/-! ## Reading an address text -/

namespace Address

theorem parse_of_size_ne {s : String} (h : (Text.trimBlank s).utf8ByteSize ≠ 76) :
    parse s = .error (.length 76 (Text.trimBlank s).utf8ByteSize) := by
  simp [parse, h]

theorem parse_of_readHex_error {s : String} {e : Text.HexError}
    (h76 : (Text.trimBlank s).utf8ByteSize = 76) (h : Text.readHex (Text.trimBlank s) = .error e) :
    parse s = .error (.hex e) := by
  simp [parse, h76, h]

theorem parse_of_readHex_ok {s : String} {bs : List UInt8}
    (h76 : (Text.trimBlank s).utf8ByteSize = 76) (h : Text.readHex (Text.trimBlank s) = .ok bs) :
    parse s = ofBytes bs := by
  simp [parse, h76, h]

/-- Reading a text is reading the bytes it spells once trimmed; a wrong number of bytes is a
length fault either way, counted in digits. -/
theorem parse_eq_ofBytes {s : String} {bs : List UInt8}
    (h : (Text.trimBlank s).toUpper = Text.hexOf true bs) : parse s = ofBytes bs := by
  obtain ⟨hdigits, hlen⟩ := Text.digits_of_spells h
  have hsize : (Text.trimBlank s).utf8ByteSize = 2 * bs.length := by
    rw [Text.utf8ByteSize_of_digits hdigits, hlen]
  by_cases hbs : bs.length = 38
  · exact parse_of_readHex_ok (by omega) (Text.readHex_eq_ok_iff.2 h)
  · rw [parse_of_size_ne (by omega), hsize, ofBytes, dif_neg hbs, Nat.mul_comm]

theorem parse_of_digits {s : String} (h76 : (Text.trimBlank s).utf8ByteSize = 76)
    (hd : ∀ c ∈ (Text.trimBlank s).toList, c.isHexDigit = true) :
    ∃ bs, (Text.trimBlank s).toUpper = Text.hexOf true bs ∧ bs.length = 38 ∧ parse s = ofBytes bs := by
  obtain ⟨bs, hbs⟩ := (Text.readHex_ok_iff_digits (by rw [h76])).2 hd
  have hspells := Text.readHex_eq_ok_iff.1 hbs
  have hlen : bs.length = 38 := by
    have h := (Text.digits_of_spells hspells).2
    rw [← Text.utf8ByteSize_of_digits hd, h76] at h
    omega
  exact ⟨bs, hspells, hlen, parse_of_readHex_ok h76 hbs⟩

theorem parse_of_not_digits {s : String} (h76 : (Text.trimBlank s).utf8ByteSize = 76)
    (hd : ∃ c ∈ (Text.trimBlank s).toList, c.isHexDigit = false) :
    ∃ e, parse s = .error (.hex e) := by
  cases hr : Text.readHex (Text.trimBlank s) with
  | error e => exact ⟨e, parse_of_readHex_error h76 hr⟩
  | ok bs =>
    obtain ⟨c, hc, hnot⟩ := hd
    have := (Text.digits_of_spells (Text.readHex_eq_ok_iff.1 hr)).1 c hc
    rw [hnot] at this
    cases this

/-- A length fault exactly when the trimmed text is not 76 bytes long. -/
theorem parse_length_iff (s : String) :
    (∃ e n, parse s = .error (.length e n)) ↔ (Text.trimBlank s).utf8ByteSize ≠ 76 := by
  refine ⟨?_, fun h => ⟨_, _, parse_of_size_ne h⟩⟩
  rintro ⟨e, n, h⟩ h76
  by_cases hd : ∀ c ∈ (Text.trimBlank s).toList, c.isHexDigit = true
  · -- 38 bytes read either as an address or as a checksum fault
    obtain ⟨bs, -, hlen, hread⟩ := parse_of_digits h76 hd
    rw [hread] at h
    rcases ofBytes_cases hlen with ⟨-, a, ha⟩ | ⟨-, he⟩
    · rw [ha] at h; cases h
    · rw [he] at h; cases h
  · obtain ⟨e', he'⟩ := parse_of_not_digits h76 (by simpa using hd)
    rw [he'] at h
    cases h

/-- Once the length is right, a digit fault exactly when some character is no hex digit. -/
theorem parse_hex_iff {s : String} (h76 : (Text.trimBlank s).utf8ByteSize = 76) :
    (∃ e, parse s = .error (.hex e)) ↔ ∃ c ∈ (Text.trimBlank s).toList, c.isHexDigit = false := by
  refine ⟨?_, parse_of_not_digits h76⟩
  rintro ⟨e, h⟩
  by_contra hd
  obtain ⟨bs, -, hlen, hread⟩ := parse_of_digits h76 (by simpa using hd)
  rw [hread] at h
  rcases ofBytes_cases hlen with ⟨-, a, ha⟩ | ⟨-, he⟩
  · rw [ha] at h; cases h
  · rw [he] at h; cases h

/-- Once length and digits are right, a checksum fault exactly when the bytes the text spells are
not sealed, and their address otherwise. -/
theorem parse_checksum_iff {s : String} (h76 : (Text.trimBlank s).utf8ByteSize = 76)
    (hd : ∀ c ∈ (Text.trimBlank s).toList, c.isHexDigit = true) :
    ∃ bs, (Text.trimBlank s).toUpper = Text.hexOf true bs ∧
      (parse s = .error .checksum ↔ ¬ Sealed bs) ∧ (Sealed bs → ∃ a, parse s = .ok a ∧ a.toBytes = bs) := by
  obtain ⟨bs, hspells, hlen, hread⟩ := parse_of_digits h76 hd
  refine ⟨bs, hspells, ?_⟩
  rw [hread]
  rcases ofBytes_cases hlen with ⟨hs, a, ha⟩ | ⟨hs, he⟩
  · refine ⟨⟨fun h => ?_, fun h => absurd hs h⟩, fun _ => ⟨a, ha, toBytes_of_ofBytes ha⟩⟩
    rw [ha] at h
    cases h
  · exact ⟨⟨fun _ => hs, fun _ => he⟩, fun h => absurd h hs⟩

/-- One hex digit of the text of an address changed to a digit of another value reads as a
checksum fault. -/
theorem parse_set_digit {bs : List UInt8} {a : Address} (hok : ofBytes bs = .ok a) {t : String}
    (ht : t.toUpper = Text.hexOf true bs) {i : Nat} {c : Char} (hc : c.isHexDigit = true)
    (hne : (String.ofList (t.toList.set i c)).toUpper ≠ t.toUpper) :
    parse (String.ofList (t.toList.set i c)) = .error .checksum := by
  obtain ⟨x, hx⟩ := Text.spells_set ht i hc
  obtain ⟨hdigits, hlen⟩ := Text.digits_of_spells hx
  have hbs := (sealed_of_ofBytes hok).1
  have htrim : Text.trimBlank (String.ofList (t.toList.set i c)) = String.ofList (t.toList.set i c) := by
    refine Text.trimBlank_of_digits hdigits ?_
    intro hnil
    rw [hnil, List.length_set, hbs] at hlen
    cases hlen
  rw [parse_eq_ofBytes (htrim ▸ hx)]
  refine ofBytes_set hok fun heq => hne ?_
  rw [hx, heq, ht]

/-- Reading an address text reports the first fault in the order length, digits, checksum:
a length fault exactly when the trimmed text is not 76 bytes long, counted in UTF-8 bytes;
otherwise a digit fault exactly when some character of it is no hex digit; otherwise a checksum
fault exactly when the 38 bytes it spells are not sealed (their last two are not the xor-fold of
the 36 before them, even places into the first byte and odd places into the second), and the
address of those bytes when they are. One byte of sealed bytes changed to another value, or one
hex digit of their text (in any case) changed to a digit of another value, is always a checksum
fault. -/
theorem parse_reports_the_first_fault :
    (∀ s : String, (∃ e n, parse s = .error (.length e n)) ↔ (Text.trimBlank s).utf8ByteSize ≠ 76) ∧
    (∀ s : String, (Text.trimBlank s).utf8ByteSize ≠ 76 →
      parse s = .error (.length 76 (Text.trimBlank s).utf8ByteSize)) ∧
    (∀ s : String, (Text.trimBlank s).utf8ByteSize = 76 →
      ((∃ e, parse s = .error (.hex e)) ↔ ∃ c ∈ (Text.trimBlank s).toList, c.isHexDigit = false)) ∧
    (∀ s : String, (Text.trimBlank s).utf8ByteSize = 76 →
      (∀ c ∈ (Text.trimBlank s).toList, c.isHexDigit = true) →
      ∃ bs, (Text.trimBlank s).toUpper = Text.hexOf true bs ∧
        (parse s = .error .checksum ↔ ¬ Sealed bs) ∧
        (Sealed bs → ∃ a, parse s = .ok a ∧ a.toBytes = bs)) ∧
    (∀ (bs : List UInt8) (a : Address) (i : Nat) (x : UInt8), ofBytes bs = .ok a →
      bs.set i x ≠ bs → ofBytes (bs.set i x) = .error .checksum) ∧
    (∀ (bs : List UInt8) (a : Address) (t : String) (i : Nat) (c : Char), ofBytes bs = .ok a →
      t.toUpper = Text.hexOf true bs → c.isHexDigit = true →
      (String.ofList (t.toList.set i c)).toUpper ≠ t.toUpper →
      parse (String.ofList (t.toList.set i c)) = .error .checksum) :=
  ⟨parse_length_iff, fun _ => parse_of_size_ne, fun _ => parse_hex_iff,
    fun _ => parse_checksum_iff, fun _ _ _ _ hok hne => ofBytes_set hok hne,
    fun _ _ _ _ _ hok ht hc hne => parse_set_digit hok ht hc hne⟩

/-- The first digit of an address's text changed from `A` to `0` is caught by the checksum. -/
theorem first_digit_changed_is_a_checksum_fault :
    (String.ofList ((new (PublicKey.replicate 0xab) 0x1234abcd).hex.toList.set 0 '0')).toUpper ≠
        (new (PublicKey.replicate 0xab) 0x1234abcd).hex.toUpper ∧
      parse (String.ofList ((new (PublicKey.replicate 0xab) 0x1234abcd).hex.toList.set 0 '0')) =
        .error .checksum := by
  have hne : (String.ofList ((new (PublicKey.replicate 0xab) 0x1234abcd).hex.toList.set 0 '0')).toUpper ≠
      (new (PublicKey.replicate 0xab) 0x1234abcd).hex.toUpper := by
    -- the two texts already differ in their first character
    intro h
    have hfirst := congrArg (fun s => s.toList.head?) h
    simp only [String.toUpper, String.toList_map, String.toList_ofList, hex_toList] at hfirst
    revert hfirst
    decide
  exact ⟨hne, parse_reports_the_first_fault.2.2.2.2.2 _ _ _ 0 '0' (ofBytes_toBytes _ _)
    (hex_toUpper _) rfl hne⟩

end Address

end Courier
