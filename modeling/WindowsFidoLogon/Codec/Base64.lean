import Mathlib.Data.List.Basic
import WindowsFidoLogon.Library.Program
import WindowsFidoLogon.Model.Convert

/-!
# Base64

The lengths on both sides of the codec, and that the strict decoder undoes the
encoder.  The decoder's accumulator is never masked, so a block is read with
anything in the accumulator: the bytes it yields do not depend on that.
-/

namespace WindowsFidoLogon
namespace Convert

/-! ## Length -/

/-- `n` bytes take `⌈4n/3⌉` characters when they are not padded. -/
theorem length_base64Encode (data : Bytes) :
    (base64Encode false data).length = (4 * data.length + 2) / 3 := by
  induction data using base64Encode.induct with
  | case1 => rfl
  | case2 => simp [base64Encode, pad]
  | case3 => simp [base64Encode, pad]
  | case4 a b c rest ih =>
      simp only [base64Encode, List.length_cons, ih]
      omega

theorem length_base64URLEncode (data : Bytes) :
    (base64URLEncode data).length = (4 * data.length + 2) / 3 := by
  rw [base64URLEncode, List.length_map, length_base64Encode]

/-- The decoding loop takes six bits from each character and gives eight to each
byte. -/
theorem decodeLoop_bits {input : Bytes} {s t : DecodeState} (hs : s.bits < 8)
    (h : decodeLoop s input = some t) :
    8 * t.decoded.length + t.bits = 8 * s.decoded.length + s.bits + 6 * input.length ∧
      t.bits < 8 := by
  induction input generalizing s with
  | nil =>
      obtain rfl := Option.some.inj h
      exact ⟨rfl, hs⟩
  | cons c rest ih =>
      unfold decodeLoop at h
      cases hValue : base64Value c with
      | none => simp [hValue] at h
      | some value =>
          rw [hValue] at h
          dsimp only at h
          have hStep : 8 * (decodeStep s value).decoded.length + (decodeStep s value).bits =
              8 * s.decoded.length + s.bits + 6 ∧ (decodeStep s value).bits < 8 := by
            unfold decodeStep
            dsimp only
            split_ifs with hByte
            · simp only [List.length_append, List.length_singleton]
              omega
            · exact ⟨rfl, Nat.lt_of_not_le hByte⟩
          obtain ⟨hRest, hBits⟩ := ih hStep.2 h
          refine ⟨?_, hBits⟩
          rw [hRest, hStep.1, List.length_cons]
          omega

/-! ## The alphabet -/

/-- A character of the unpadded URL alphabet. -/
def IsUrlChar (c : UInt8) : Prop :=
  (fromUrlAlphabet c).isSome = true

instance (c : UInt8) : Decidable (IsUrlChar c) :=
  inferInstanceAs (Decidable (_ = _))

theorem alphabet_facts : ∀ n < 64,
    base64Value (base64Char (UInt32.ofNat n)) = some (UInt32.ofNat n) ∧
      fromUrlAlphabet (toUrlAlphabet (base64Char (UInt32.ofNat n))) =
        some (base64Char (UInt32.ofNat n)) ∧
      base64Char (UInt32.ofNat n) ≠ 61 := by
  decide

/-- The six bits of a block from bit `k` on. -/
def sextet (block k : UInt32) : UInt32 :=
  (block >>> k) &&& 0x3f

theorem toNat_sextet_lt (block k : UInt32) : (sextet block k).toNat < 64 := by
  have h : (sextet block k).toNat = (block >>> k).toNat &&& 63 := UInt32.toNat_and _ _
  rw [h]
  exact Nat.lt_of_le_of_lt Nat.and_le_right (by decide)

theorem base64Value_sextet (block k : UInt32) :
    base64Value (base64Char (sextet block k)) = some (sextet block k) := by
  have h := (alphabet_facts _ (toNat_sextet_lt block k)).1
  rwa [UInt32.ofNat_toNat] at h

theorem fromUrlAlphabet_sextet (block k : UInt32) :
    fromUrlAlphabet (toUrlAlphabet (base64Char (sextet block k))) =
      some (base64Char (sextet block k)) := by
  have h := (alphabet_facts _ (toNat_sextet_lt block k)).2.1
  rwa [UInt32.ofNat_toNat] at h

theorem base64Char_sextet_ne (block k : UInt32) : base64Char (sextet block k) ≠ 61 := by
  have h := (alphabet_facts _ (toNat_sextet_lt block k)).2.2
  rwa [UInt32.ofNat_toNat] at h

/-! ### The encoder by sextets -/

theorem base64Encode_one (a : UInt8) :
    base64Encode false [a] =
      [base64Char (sextet (encodeBlock a 0 0) 18), base64Char (sextet (encodeBlock a 0 0) 12)] :=
  rfl

theorem base64Encode_two (a b : UInt8) :
    base64Encode false [a, b] =
      [base64Char (sextet (encodeBlock a b 0) 18), base64Char (sextet (encodeBlock a b 0) 12),
        base64Char (sextet (encodeBlock a b 0) 6)] :=
  rfl

theorem base64Encode_block (a b c : UInt8) (rest : Bytes) :
    base64Encode false (a :: b :: c :: rest) =
      base64Char (sextet (encodeBlock a b c) 18) :: base64Char (sextet (encodeBlock a b c) 12) ::
        base64Char (sextet (encodeBlock a b c) 6) :: base64Char (sextet (encodeBlock a b c) 0) ::
        base64Encode false rest := by
  simp [base64Encode, sextet]

/-- The encoder writes characters of sextets only. -/
theorem forall_mem_base64Encode {p : UInt8 → Prop} (hp : ∀ block k, p (base64Char (sextet block k)))
    (data : Bytes) : ∀ c ∈ base64Encode false data, p c := by
  induction data using base64Encode.induct with
  | case1 => exact nofun
  | case2 a => simp [base64Encode_one, hp]
  | case3 a b => simp [base64Encode_two, hp]
  | case4 a b c rest ih =>
      rw [base64Encode_block]
      simp only [List.forall_mem_cons]
      exact ⟨hp _ _, hp _ _, hp _ _, hp _ _, ih⟩

/-! ## The round trip -/

theorem toNat_shiftLeft {k : UInt32} {n : Nat} (hk : k.toNat % 32 = n) (x : UInt32) :
    (x <<< k).toNat = x.toNat * 2 ^ n % 2 ^ 32 := by
  rw [UInt32.toNat_shiftLeft, Nat.shiftLeft_eq, hk]

theorem toNat_shiftRight {k : UInt32} {n : Nat} (hk : k.toNat % 32 = n) (x : UInt32) :
    (x >>> k).toNat = x.toNat / 2 ^ n := by
  rw [UInt32.toNat_shiftRight, Nat.shiftRight_eq_div_pow, hk]

/-- A number put below a multiple of a power of two is added to it. -/
theorem mul_pow_or {n y : Nat} (hy : y < 2 ^ n) (x : Nat) : x * 2 ^ n ||| y = x * 2 ^ n + y := by
  rw [← Nat.shiftLeft_eq, Nat.shiftLeft_add_eq_or_of_lt hy]

theorem toNat_encodeBlock (a b c : UInt8) :
    (encodeBlock a b c).toNat = a.toNat * 65536 + b.toNat * 256 + c.toNat := by
  have ha := a.toNat_lt
  have hb := b.toNat_lt
  have hc := c.toNat_lt
  have hHigh : (a.toUInt32 <<< 16).toNat = a.toNat * 65536 := by
    rw [toNat_shiftLeft (n := 16) rfl, UInt8.toNat_toUInt32]
    omega
  have hMiddle : (b.toUInt32 <<< 8).toNat = b.toNat * 256 := by
    rw [toNat_shiftLeft (n := 8) rfl, UInt8.toNat_toUInt32]
    omega
  unfold encodeBlock
  rw [UInt32.toNat_or, UInt32.toNat_or, hHigh, hMiddle, UInt8.toNat_toUInt32]
  have hUpper : a.toNat * 65536 ||| b.toNat * 256 = a.toNat * 65536 + b.toNat * 256 :=
    mul_pow_or (n := 16) (by omega) a.toNat
  have hLower := mul_pow_or (n := 8) hc (a.toNat * 256 + b.toNat)
  rw [hUpper, show a.toNat * 65536 + b.toNat * 256 = (a.toNat * 256 + b.toNat) * 2 ^ 8 by omega]
  exact hLower

theorem toNat_sextet {k : UInt32} {n : Nat} (hk : k.toNat % 32 = n) (block : UInt32) :
    (sextet block k).toNat = block.toNat / 2 ^ n % 64 := by
  have hMask : (sextet block k).toNat = (block >>> k).toNat &&& (2 ^ 6 - 1) := UInt32.toNat_and _ _
  rw [hMask, toNat_shiftRight hk, Nat.and_two_pow_sub_one_eq_mod]

/-- One more sextet in the accumulator; what was above 26 bits is lost. -/
theorem toNat_accumulate (acc block k : UInt32) :
    ((acc <<< 6) ||| sextet block k).toNat =
      acc.toNat % 2 ^ 26 * 64 + (sextet block k).toNat := by
  rw [UInt32.toNat_or, toNat_shiftLeft (n := 6) rfl]
  have hShift : acc.toNat * 2 ^ 6 % 2 ^ 32 = acc.toNat % 2 ^ 26 * 2 ^ 6 := by omega
  rw [hShift]
  exact mul_pow_or (toNat_sextet_lt block k) _

/-- The byte that leaves the accumulator with `n` bits below it. -/
theorem toNat_yield {n : Nat} (hn : n < 32) (acc : UInt32) :
    (((acc >>> n.toUInt32) &&& 0xff).toUInt8).toNat = acc.toNat / 2 ^ n % 256 := by
  have hk : n.toUInt32.toNat % 32 = n := by
    rw [Nat.toUInt32_eq, UInt32.toNat_ofNat']
    omega
  have hMask : ((acc >>> n.toUInt32) &&& 0xff).toNat = (acc >>> n.toUInt32).toNat &&& (2 ^ 8 - 1) :=
    UInt32.toNat_and _ _
  rw [UInt32.toNat_toUInt8, hMask, toNat_shiftRight hk, Nat.and_two_pow_sub_one_eq_mod]
  omega

/-! ### One block -/

/-- The accumulator after one more character. -/
def pushed (acc value : UInt32) : UInt32 :=
  (acc <<< 6) ||| value

/-- The byte that is taken from the accumulator with `n` bits below it. -/
def yielded (acc : UInt32) (n : Nat) : UInt8 :=
  ((acc >>> n.toUInt32) &&& 0xff).toUInt8

section Block

variable (acc last v : UInt32) (decoded : Bytes)

theorem decodeStep_first :
    decodeStep ⟨acc, 0, last, decoded⟩ v = ⟨pushed acc v, 6, v, decoded⟩ := rfl

theorem decodeStep_second :
    decodeStep ⟨acc, 6, last, decoded⟩ v =
      ⟨pushed acc v, 4, v, decoded ++ [yielded (pushed acc v) 4]⟩ := rfl

theorem decodeStep_third :
    decodeStep ⟨acc, 4, last, decoded⟩ v =
      ⟨pushed acc v, 2, v, decoded ++ [yielded (pushed acc v) 2]⟩ := rfl

theorem decodeStep_fourth :
    decodeStep ⟨acc, 2, last, decoded⟩ v =
      ⟨pushed acc v, 0, v, decoded ++ [yielded (pushed acc v) 0]⟩ := rfl

end Block

theorem decodeLoop_sextet (s : DecodeState) (block k : UInt32) (rest : Bytes) :
    decodeLoop s (base64Char (sextet block k) :: rest) =
      decodeLoop (decodeStep s (sextet block k)) rest := by
  rw [decodeLoop, base64Value_sextet]

section Bytes

variable (acc : UInt32) (a b c : UInt8)

/-- The first two sextets of a block hold its first byte. -/
theorem yielded_first :
    yielded (pushed (pushed acc (sextet (encodeBlock a b c) 18)) (sextet (encodeBlock a b c) 12)) 4 =
      a := by
  refine UInt8.toNat_inj.mp ?_
  unfold yielded pushed
  rw [toNat_yield (by decide), toNat_accumulate, toNat_accumulate, toNat_sextet (n := 18) rfl,
    toNat_sextet (n := 12) rfl, toNat_encodeBlock]
  have ha := a.toNat_lt
  have hb := b.toNat_lt
  have hc := c.toNat_lt
  omega

/-- The second and third sextet hold its second byte, whatever is above them. -/
theorem yielded_second :
    yielded (pushed (pushed acc (sextet (encodeBlock a b c) 12)) (sextet (encodeBlock a b c) 6)) 2 =
      b := by
  refine UInt8.toNat_inj.mp ?_
  unfold yielded pushed
  rw [toNat_yield (by decide), toNat_accumulate, toNat_accumulate, toNat_sextet (n := 12) rfl,
    toNat_sextet (n := 6) rfl, toNat_encodeBlock]
  have ha := a.toNat_lt
  have hb := b.toNat_lt
  have hc := c.toNat_lt
  omega

theorem yielded_third :
    yielded (pushed (pushed acc (sextet (encodeBlock a b c) 6)) (sextet (encodeBlock a b c) 0)) 0 =
      c := by
  refine UInt8.toNat_inj.mp ?_
  unfold yielded pushed
  rw [toNat_yield (by decide), toNat_accumulate, toNat_accumulate, toNat_sextet (n := 6) rfl,
    toNat_sextet (n := 0) rfl, toNat_encodeBlock]
  have ha := a.toNat_lt
  have hb := b.toNat_lt
  have hc := c.toNat_lt
  omega

end Bytes

/-- A whole block is read back, and the loop goes on with no bits left. -/
theorem decodeLoop_block (acc last : UInt32) (decoded : Bytes) (a b c : UInt8) (rest : Bytes) :
    ∃ acc' last', decodeLoop ⟨acc, 0, last, decoded⟩ (base64Encode false (a :: b :: c :: rest)) =
      decodeLoop ⟨acc', 0, last', decoded ++ [a, b, c]⟩ (base64Encode false rest) := by
  refine ⟨pushed (pushed (pushed (pushed acc (sextet (encodeBlock a b c) 18))
    (sextet (encodeBlock a b c) 12)) (sextet (encodeBlock a b c) 6)) (sextet (encodeBlock a b c) 0),
    sextet (encodeBlock a b c) 0, ?_⟩
  rw [base64Encode_block, decodeLoop_sextet, decodeLoop_sextet, decodeLoop_sextet,
    decodeLoop_sextet, decodeStep_first, decodeStep_second, decodeStep_third, decodeStep_fourth,
    yielded_first, yielded_second, yielded_third]
  simp only [List.append_assoc, List.cons_append, List.nil_append]

/-- The trailing bits that the decoder checks after the last character. -/
def Canonical (length : Nat) (last : UInt32) : Prop :=
  (length % 4 = 2 → last &&& 0x0f = 0) ∧ (length % 4 = 3 → last &&& 0x03 = 0)

/-- The bits below the last byte are zero. -/
theorem sextet_trailing {k mask : UInt32} {m n : Nat} (hk : k.toNat % 32 = n)
    (hMask : mask.toNat = 2 ^ m - 1) (hSmall : m ≤ 6) {block : UInt32}
    (hBlock : block.toNat / 2 ^ n % 2 ^ m = 0) : sextet block k &&& mask = 0 := by
  refine UInt32.toNat_inj.mp ?_
  rw [UInt32.toNat_and, toNat_sextet hk, hMask, Nat.and_two_pow_sub_one_eq_mod]
  have hDvd : 2 ^ m ∣ 64 := Nat.pow_dvd_pow 2 hSmall
  rw [Nat.mod_mod_of_dvd _ hDvd, hBlock]
  rfl

theorem decodeLoop_base64Encode (data : Bytes) (acc last : UInt32) (decoded : Bytes) :
    ∃ t, decodeLoop ⟨acc, 0, last, decoded⟩ (base64Encode false data) = some t ∧
      t.decoded = decoded ++ data ∧ Canonical (base64Encode false data).length t.lastValue := by
  induction data using base64Encode.induct generalizing acc last decoded with
  | case1 => exact ⟨_, rfl, (List.append_nil _).symm, by simp [base64Encode, Canonical]⟩
  | case2 a =>
      refine ⟨_, by rw [base64Encode_one, decodeLoop_sextet, decodeLoop_sextet, decodeLoop],
        ?_, ?_⟩
      · rw [decodeStep_first, decodeStep_second, yielded_first]
      · refine ⟨fun _ => ?_, by simp [length_base64Encode]⟩
        refine sextet_trailing (n := 12) (m := 4) rfl rfl (by decide) ?_
        rw [toNat_encodeBlock]
        simp
        omega
  | case3 a b =>
      refine ⟨_, by rw [base64Encode_two, decodeLoop_sextet, decodeLoop_sextet, decodeLoop_sextet,
        decodeLoop], ?_, ?_⟩
      · rw [decodeStep_first, decodeStep_second, decodeStep_third, yielded_first, yielded_second]
        simp
      · refine ⟨by simp [length_base64Encode], fun _ => ?_⟩
        refine sextet_trailing (n := 6) (m := 2) rfl rfl (by decide) ?_
        rw [toNat_encodeBlock]
        simp
        omega
  | case4 a b c rest ih =>
      obtain ⟨acc', last', hBlock⟩ := decodeLoop_block acc last decoded a b c rest
      obtain ⟨t, hRest, hDecoded, hCanonical⟩ := ih acc' last' (decoded ++ [a, b, c])
      refine ⟨t, hBlock.trans hRest, by rw [hDecoded]; simp, ?_⟩
      have hLength : (base64Encode false (a :: b :: c :: rest)).length % 4 =
          (base64Encode false rest).length % 4 := by
        rw [base64Encode_block]
        simp only [List.length_cons]
        omega
      unfold Canonical at hCanonical ⊢
      rwa [hLength]

/-! ### Whole texts -/

theorem paddingLength_of_notMem {input : Bytes} (h : (61 : UInt8) ∉ input) :
    paddingLength input = 0 := by
  unfold paddingLength
  rw [List.length_eq_zero_iff]
  cases hReverse : input.reverse with
  | nil => rfl
  | cons c rest =>
      have hMem : c ∈ input := List.mem_reverse.mp (hReverse ▸ List.mem_cons_self)
      rw [List.takeWhile_cons_of_neg]
      simpa using fun hPad : c = 61 => h (hPad ▸ hMem)

/-- Without padding the strict decoder is its loop and the check of the last bits. -/
theorem decodeBase64Strict_of_unpadded {input : Bytes} (hNonempty : input ≠ [])
    (hLength : input.length % 4 ≠ 1) (hPadding : (61 : UInt8) ∉ input) {t : DecodeState}
    (hLoop : decodeLoop {} input = some t) :
    decodeBase64Strict input =
      if (input.length % 4 = 2 ∧ t.lastValue &&& 0x0f ≠ 0) ∨
          (input.length % 4 = 3 ∧ t.lastValue &&& 0x03 ≠ 0) then [] else t.decoded := by
  unfold decodeBase64Strict
  rw [if_neg (by simpa using hNonempty), paddingLength_of_notMem hPadding]
  simp only [Nat.sub_zero, List.take_length, hLoop]
  rw [if_neg (by decide), if_neg hLength, if_neg (by simp), if_neg (by simp)]

theorem fromUrlAlphabet_ne {c d : UInt8} (h : fromUrlAlphabet c = some d) : d ≠ 61 := by
  unfold fromUrlAlphabet at h
  split_ifs at h with hSame hMinus hUnder
  · obtain rfl := Option.some.inj h
    rintro rfl
    exact absurd hSame (by decide)
  · exact Option.some.inj h ▸ (by decide)
  · exact Option.some.inj h ▸ (by decide)

theorem mapM_fromUrlAlphabet {value base64 : Bytes}
    (h : value.mapM fromUrlAlphabet = some base64) :
    base64.length = value.length ∧ (∀ c ∈ value, IsUrlChar c) ∧ (61 : UInt8) ∉ base64 := by
  induction value generalizing base64 with
  | nil =>
      obtain rfl : base64 = [] := by simpa using h.symm
      exact ⟨rfl, nofun, List.not_mem_nil⟩
  | cons c rest ih =>
      simp only [List.mapM_cons, Option.bind_eq_bind, Option.bind_eq_some_iff, Option.pure_def,
        Option.some.injEq] at h
      obtain ⟨d, hd, base64, hRest, rfl⟩ := h
      obtain ⟨hLength, hChars, hPadding⟩ := ih hRest
      refine ⟨by rw [List.length_cons, List.length_cons, hLength], ?_, ?_⟩
      · exact List.forall_mem_cons.mpr ⟨by rw [IsUrlChar, hd]; rfl, hChars⟩
      · rw [List.mem_cons, not_or]
        exact ⟨(fromUrlAlphabet_ne hd).symm, hPadding⟩

theorem mapM_map_toUrlAlphabet {base64 : Bytes}
    (h : ∀ c ∈ base64, fromUrlAlphabet (toUrlAlphabet c) = some c) :
    (base64.map toUrlAlphabet).mapM fromUrlAlphabet = some base64 := by
  induction base64 with
  | nil => rfl
  | cons c rest ih =>
      rw [List.forall_mem_cons] at h
      simp [h.1, ih h.2]

/-- The strict decoder undoes the encoder. -/
theorem base64URLDecode_encode {data : Bytes} (hNonempty : data ≠ []) :
    base64URLDecode (base64URLEncode data) = data := by
  have hPos : 0 < data.length := List.length_pos_iff.mpr hNonempty
  have hLength := length_base64Encode data
  have hSome : base64Encode false data ≠ [] := by
    rw [← List.length_pos_iff, hLength]
    omega
  obtain ⟨t, hLoop, hDecoded, hCanonical⟩ := decodeLoop_base64Encode data 0 0 []
  have hPadding : (61 : UInt8) ∉ base64Encode false data :=
    fun hMem => forall_mem_base64Encode (p := fun c => c ≠ 61) base64Char_sextet_ne data _ hMem rfl
  unfold base64URLDecode base64URLEncode
  rw [if_neg (by simp [hSome]; omega),
    mapM_map_toUrlAlphabet (forall_mem_base64Encode fromUrlAlphabet_sextet data)]
  dsimp only
  rw [decodeBase64Strict_of_unpadded hSome (by omega) hPadding hLoop, if_neg, hDecoded]
  · rfl
  · rintro (⟨hTwo, hBits⟩ | ⟨hThree, hBits⟩)
    · exact hBits (hCanonical.1 hTwo)
    · exact hBits (hCanonical.2 hThree)

theorem base64URLEncode_injective {a b : Bytes} (ha : a ≠ []) (hb : b ≠ [])
    (h : base64URLEncode a = base64URLEncode b) : a = b := by
  rw [← base64URLDecode_encode ha, h, base64URLDecode_encode hb]

/-- What is decoded comes from a text in the alphabet, six bits for each character. -/
theorem of_base64URLDecode {value : Bytes} (h : base64URLDecode value ≠ []) :
    (∀ c ∈ value, IsUrlChar c) ∧ (base64URLDecode value).length = 6 * value.length / 8 := by
  unfold base64URLDecode at h ⊢
  split_ifs at h ⊢ with hRefused
  · exact absurd rfl h
  rw [not_or] at hRefused
  cases hAlphabet : value.mapM fromUrlAlphabet with
  | none => simp [hAlphabet] at h
  | some base64 =>
      rw [hAlphabet] at h
      dsimp only at h ⊢
      obtain ⟨hSame, hChars, hPadding⟩ := mapM_fromUrlAlphabet hAlphabet
      refine ⟨hChars, ?_⟩
      have hNonempty : base64 ≠ [] := by
        rintro rfl
        exact h rfl
      cases hLoop : decodeLoop {} base64 with
      | none =>
          unfold decodeBase64Strict at h
          simp [paddingLength_of_notMem hPadding, hLoop] at h
      | some t =>
          have hStrict := decodeBase64Strict_of_unpadded hNonempty (by omega) hPadding hLoop
          rw [hStrict] at h ⊢
          split_ifs at h ⊢ with hBits
          · exact absurd rfl h
          · obtain ⟨hCount, hRest⟩ := decodeLoop_bits (by decide) hLoop
            simp only [List.length_nil] at hCount
            omega

end Convert
end WindowsFidoLogon
