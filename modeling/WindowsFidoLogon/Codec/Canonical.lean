import WindowsFidoLogon.Codec.Base64

/-!
# Canonical base64

The decoder accepts a text only if it is an encoding, so that encoding undoes
decoding as well, and a value has one unpadded text.  A block of four characters
is taken apart here as the loop reads it: whatever is in the accumulator above
it, the bytes it yields are encoded by these four characters.

`wideLoop` is the loop with an accumulator of any size.  It yields the same
bytes, so that nothing the loop needs is ever shifted out of its 32 bits.
-/

namespace WindowsFidoLogon
namespace Convert

/-! ## Values of characters -/

theorem base64Value_facts : ∀ n < 256, (base64Value (UInt8.ofNat n)).all (fun v =>
    v.toNat < 64 && base64Char v == UInt8.ofNat n && UInt8.ofNat n != 61) = true := by
  decide +kernel

theorem of_base64Value {c : UInt8} {v : UInt32} (h : base64Value c = some v) :
    v.toNat < 64 ∧ base64Char v = c ∧ c ≠ 61 := by
  have hFacts := base64Value_facts c.toNat c.toNat_lt
  rw [UInt8.ofNat_toNat, h] at hFacts
  simpa [and_assoc] using hFacts

theorem toNat_pushed (acc : UInt32) {v : UInt32} (hv : v.toNat < 64) :
    (pushed acc v).toNat = acc.toNat % 2 ^ 26 * 64 + v.toNat := by
  rw [pushed, UInt32.toNat_or, toNat_shiftLeft (n := 6) rfl]
  have hShift : acc.toNat * 2 ^ 6 % 2 ^ 32 = acc.toNat % 2 ^ 26 * 2 ^ 6 := by omega
  rw [hShift]
  exact mul_pow_or hv _

/-! ### The bytes of two characters -/

section Yields

variable (acc : UInt32) {u v : UInt32} (hu : u.toNat < 64) (hv : v.toNat < 64)

include hu hv

/-- Two characters in the accumulator, with what is above them. -/
theorem toNat_pushed_pushed :
    (pushed (pushed acc u) v).toNat = acc.toNat % 2 ^ 20 * 4096 + u.toNat * 64 + v.toNat := by
  rw [toNat_pushed _ hv, toNat_pushed _ hu]
  omega

theorem toNat_yielded_first :
    (yielded (pushed (pushed acc u) v) 4).toNat = u.toNat * 4 + v.toNat / 16 := by
  rw [yielded, toNat_yield (by decide), toNat_pushed_pushed acc hu hv]
  omega

theorem toNat_yielded_second :
    (yielded (pushed (pushed acc u) v) 2).toNat = u.toNat % 16 * 16 + v.toNat / 4 := by
  rw [yielded, toNat_yield (by decide), toNat_pushed_pushed acc hu hv]
  omega

theorem toNat_yielded_third :
    (yielded (pushed (pushed acc u) v) 0).toNat = u.toNat % 4 * 64 + v.toNat := by
  rw [yielded, toNat_yield (by decide), toNat_pushed_pushed acc hu hv]
  omega

end Yields

/-- A sextet of a block is known by its number. -/
theorem base64Char_sextet {c : UInt8} {v k block : UInt32} {n : Nat} (hk : k.toNat % 32 = n)
    (hValue : base64Value c = some v) (hBlock : block.toNat / 2 ^ n % 64 = v.toNat) :
    base64Char (sextet block k) = c := by
  have hSextet : sextet block k = v := by
    apply UInt32.toNat_inj.mp
    rw [toNat_sextet hk, hBlock]
  rw [hSextet, (of_base64Value hValue).2.1]

/-- A mask of the lowest bits tells whether they are zero. -/
theorem toNat_mod_of_and {v mask : UInt32} {m : Nat} (hMask : mask.toNat = 2 ^ m - 1)
    (h : v &&& mask = 0) : v.toNat % 2 ^ m = 0 := by
  have hZero : (v &&& mask).toNat = 0 := by rw [h]; rfl
  rwa [UInt32.toNat_and, hMask, Nat.and_two_pow_sub_one_eq_mod] at hZero

/-- The decoding loop over one more character. -/
theorem decodeLoop_cons {s t : DecodeState} {c : UInt8} {rest : Bytes}
    (h : decodeLoop s (c :: rest) = some t) :
    ∃ v, base64Value c = some v ∧ decodeLoop (decodeStep s v) rest = some t := by
  rw [decodeLoop] at h
  cases hValue : base64Value c with
  | none => simp [hValue] at h
  | some v =>
      rw [hValue] at h
      exact ⟨v, rfl, h⟩

/-! ## What the loop has read -/

/-- A text that the loop reads up to canonical trailing bits is the encoding of
what it yields; block by block. -/
theorem base64Encode_of_decodeLoop : ∀ (input : Bytes) (acc last : UInt32) (decoded : Bytes)
    (t : DecodeState), input.length % 4 ≠ 1 →
    decodeLoop ⟨acc, 0, last, decoded⟩ input = some t → Canonical input.length t.lastValue →
    ∃ data, t.decoded = decoded ++ data ∧ input = base64Encode false data
  | [], acc, last, decoded, t, _, h, _ => by
      obtain rfl := Option.some.inj h
      exact ⟨[], by simp, rfl⟩
  | [_], _, _, _, _, hLength, _, _ => absurd rfl hLength
  | [c₀, c₁], acc, last, decoded, t, _, h, hCanonical => by
      obtain ⟨v₀, h₀, h⟩ := decodeLoop_cons h
      obtain ⟨v₁, h₁, h⟩ := decodeLoop_cons h
      rw [decodeStep_first, decodeStep_second] at h
      obtain rfl := Option.some.inj h
      have hZero : v₁.toNat % 16 = 0 := toNat_mod_of_and (m := 4) rfl (hCanonical.1 rfl)
      have hFirst := toNat_yielded_first acc (of_base64Value h₀).1 (of_base64Value h₁).1
      have hSmall := (of_base64Value h₁).1
      refine ⟨_, rfl, ?_⟩
      rw [base64Encode_one, base64Char_sextet (n := 18) rfl h₀, base64Char_sextet (n := 12) rfl h₁]
      · rw [toNat_encodeBlock, hFirst]
        simp
        omega
      · have hLarge := (of_base64Value h₀).1
        rw [toNat_encodeBlock, hFirst]
        simp
        omega
  | [c₀, c₁, c₂], acc, last, decoded, t, _, h, hCanonical => by
      obtain ⟨v₀, h₀, h⟩ := decodeLoop_cons h
      obtain ⟨v₁, h₁, h⟩ := decodeLoop_cons h
      obtain ⟨v₂, h₂, h⟩ := decodeLoop_cons h
      rw [decodeStep_first, decodeStep_second, decodeStep_third] at h
      obtain rfl := Option.some.inj h
      have hSmall₀ := (of_base64Value h₀).1
      have hSmall₁ := (of_base64Value h₁).1
      have hSmall₂ := (of_base64Value h₂).1
      have hZero : v₂.toNat % 4 = 0 := toNat_mod_of_and (m := 2) rfl (hCanonical.2 rfl)
      have hFirst := toNat_yielded_first acc hSmall₀ hSmall₁
      have hSecond := toNat_yielded_second (pushed acc v₀) hSmall₁ hSmall₂
      refine ⟨_, List.append_assoc _ _ _, ?_⟩
      rw [List.singleton_append, base64Encode_two, base64Char_sextet (n := 18) rfl h₀,
        base64Char_sextet (n := 12) rfl h₁, base64Char_sextet (n := 6) rfl h₂]
      all_goals
        rw [toNat_encodeBlock, hFirst, hSecond]
        simp
        omega
  | c₀ :: c₁ :: c₂ :: c₃ :: rest, acc, last, decoded, t, hLength, h, hCanonical => by
      obtain ⟨v₀, h₀, h⟩ := decodeLoop_cons h
      obtain ⟨v₁, h₁, h⟩ := decodeLoop_cons h
      obtain ⟨v₂, h₂, h⟩ := decodeLoop_cons h
      obtain ⟨v₃, h₃, h⟩ := decodeLoop_cons h
      rw [decodeStep_first, decodeStep_second, decodeStep_third, decodeStep_fourth] at h
      have hSmall₀ := (of_base64Value h₀).1
      have hSmall₁ := (of_base64Value h₁).1
      have hSmall₂ := (of_base64Value h₂).1
      have hSmall₃ := (of_base64Value h₃).1
      have hFirst := toNat_yielded_first acc hSmall₀ hSmall₁
      have hSecond := toNat_yielded_second (pushed acc v₀) hSmall₁ hSmall₂
      have hThird := toNat_yielded_third (pushed (pushed acc v₀) v₁) hSmall₂ hSmall₃
      have hMod : (c₀ :: c₁ :: c₂ :: c₃ :: rest).length % 4 = rest.length % 4 := by
        simp only [List.length_cons]
        omega
      have hRest : Canonical rest.length t.lastValue := by
        unfold Canonical at hCanonical ⊢
        rwa [hMod] at hCanonical
      obtain ⟨data, hData, hText⟩ :=
        base64Encode_of_decodeLoop rest _ _ _ t (by rwa [hMod] at hLength) h hRest
      refine ⟨yielded (pushed (pushed acc v₀) v₁) 4 ::
        yielded (pushed (pushed (pushed acc v₀) v₁) v₂) 2 ::
        yielded (pushed (pushed (pushed (pushed acc v₀) v₁) v₂) v₃) 0 :: data, ?_, ?_⟩
      · rw [hData]
        simp only [List.append_assoc, List.cons_append, List.nil_append]
      · rw [base64Encode_block, base64Char_sextet (n := 18) rfl h₀,
          base64Char_sextet (n := 12) rfl h₁, base64Char_sextet (n := 6) rfl h₂,
          base64Char_sextet (n := 0) rfl h₃, ← hText]
        all_goals
          rw [toNat_encodeBlock, hFirst, hSecond, hThird]
          omega

/-! ## Padding -/

theorem base64Encode_padded (data : Bytes) :
    base64Encode true data =
      base64Encode false data ++ List.replicate ((3 - data.length % 3) % 3) 61 := by
  induction data using base64Encode.induct with
  | case1 => rfl
  | case2 a => rfl
  | case3 a b => rfl
  | case4 a b c rest ih =>
      have hMod : (a :: b :: c :: rest).length % 3 = rest.length % 3 := by
        simp only [List.length_cons]
        omega
      rw [hMod]
      simp only [base64Encode, ih, List.cons_append]

/-- The padding of a text is what stands behind its last other character. -/
theorem paddingLength_append {body : Bytes} (hBody : (61 : UInt8) ∉ body) (count : Nat) :
    paddingLength (body ++ List.replicate count 61) = count := by
  have hNone := paddingLength_of_notMem hBody
  unfold paddingLength at hNone ⊢
  have hAll : ∀ c ∈ List.replicate count (61 : UInt8), (c == 61) = true := fun c hc => by
    simp [List.eq_of_mem_replicate hc]
  rw [List.reverse_append, List.reverse_replicate, List.takeWhile_append_of_pos hAll,
    List.length_append, List.length_replicate, hNone, Nat.add_zero]

/-- A text is its body and its padding. -/
theorem take_append_padding (input : Bytes) :
    input.take (input.length - paddingLength input) ++ List.replicate (paddingLength input) 61 =
      input := by
  have hPad : input.reverse.takeWhile (· == 61) = List.replicate (paddingLength input) 61 := by
    refine List.eq_replicate_iff.mpr ⟨rfl, fun c hc => ?_⟩
    simpa using List.mem_takeWhile_imp hc
  have hSplit := List.takeWhile_append_dropWhile (p := (· == (61 : UInt8))) (l := input.reverse)
  rw [hPad] at hSplit
  have hWhole := congrArg List.reverse hSplit
  rw [List.reverse_append, List.reverse_replicate, List.reverse_reverse] at hWhole
  generalize paddingLength input = count at hWhole ⊢
  rw [← hWhole]
  simp

/-! ## The strict decoder -/

theorem notMem_of_decodeLoop {input : Bytes} {s t : DecodeState}
    (h : decodeLoop s input = some t) : (61 : UInt8) ∉ input := by
  induction input generalizing s with
  | nil => simp
  | cons c rest ih =>
      obtain ⟨v, hValue, hRest⟩ := decodeLoop_cons h
      rw [List.mem_cons, not_or]
      exact ⟨(of_base64Value hValue).2.2.symm, ih hRest⟩

/-- A body with no padding, or with the padding that its length requires. -/
theorem decodeBase64Strict_of_padded {body : Bytes} {count : Nat} {t : DecodeState}
    (hNonempty : body ≠ []) (hLength : body.length % 4 ≠ 1) (hCount : count ≤ 2)
    (hPadding : count = 0 ∨ (4 - body.length % 4) % 4 = count)
    (hLoop : decodeLoop {} body = some t) (hCanonical : Canonical body.length t.lastValue) :
    decodeBase64Strict (body ++ List.replicate count 61) = t.decoded := by
  have hCounted := paddingLength_append (notMem_of_decodeLoop hLoop) count
  have hBody : (body ++ List.replicate count (61 : UInt8)).length - count = body.length := by
    rw [List.length_append, List.length_replicate, Nat.add_sub_cancel]
  unfold decodeBase64Strict
  rw [if_neg (by simp [hNonempty])]
  simp only [hCounted, hBody, List.take_left, hLoop]
  have hTotal : (body ++ List.replicate count (61 : UInt8)).length = body.length + count := by simp
  rw [if_neg (by omega), if_neg hLength, if_neg (by omega), if_neg (by omega), if_neg]
  rintro (⟨hTwo, hBits⟩ | ⟨hThree, hBits⟩)
  · exact hBits (hCanonical.1 hTwo)
  · exact hBits (hCanonical.2 hThree)

theorem base64Encode_ne_nil {data : Bytes} (hNonempty : data ≠ []) :
    base64Encode false data ≠ [] := by
  have hPos : 0 < data.length := List.length_pos_iff.mpr hNonempty
  rw [← List.length_pos_iff, length_base64Encode]
  omega

/-- The strict decoder accepts the two encodings of a value and nothing else. -/
theorem decodeBase64Strict_iff {input data : Bytes} (hNonempty : data ≠ []) :
    decodeBase64Strict input = data ↔
      input = base64Encode false data ∨ input = base64Encode true data := by
  have hLength := length_base64Encode data
  constructor
  · intro h
    unfold decodeBase64Strict at h
    dsimp only at h
    split_ifs at h with hEmpty hMany hOne hWhole hRequired
    · exact absurd h.symm hNonempty
    · exact absurd h.symm hNonempty
    · exact absurd h.symm hNonempty
    · exact absurd h.symm hNonempty
    · exact absurd h.symm hNonempty
    · have hText := take_append_padding input
      set body := input.take (input.length - paddingLength input) with hBody
      have hBodyLength : body.length = input.length - paddingLength input := by
        rw [hBody, List.length_take]
        omega
      rw [← hBodyLength] at h hOne hRequired
      cases hLoop : decodeLoop {} body with
      | none =>
          rw [hLoop] at h
          exact absurd h.symm hNonempty
      | some t =>
          rw [hLoop] at h
          dsimp only at h
          split_ifs at h with hBits
          · exact absurd h.symm hNonempty
          · rw [not_or, not_and_not_right, not_and_not_right] at hBits
            obtain ⟨data', hDecoded, hEncoded⟩ :=
              base64Encode_of_decodeLoop body 0 0 [] t hOne hLoop hBits
            obtain rfl : data' = data := by rw [← h, hDecoded, List.nil_append]
            rw [hEncoded] at hText hRequired
            by_cases hNone : paddingLength input = 0
            · left
              rw [← hText, hNone]
              simp
            · -- the padding is the one that the length of the value requires
              right
              have hPadding : paddingLength input = (3 - data'.length % 3) % 3 := by
                rw [hLength] at hRequired
                have hThree : data'.length % 3 = 0 ∨ data'.length % 3 = 1 ∨ data'.length % 3 = 2 := by
                  omega
                rcases hThree with hZero | hOne | hTwo <;> omega
              rw [base64Encode_padded, ← hPadding, hText]
  · intro h
    obtain ⟨t, hLoop, hDecoded, hCanonical⟩ := decodeLoop_base64Encode data 0 0 []
    have hBody := base64Encode_ne_nil hNonempty
    rw [List.nil_append] at hDecoded
    rcases h with rfl | rfl
    · have hUnpadded := decodeBase64Strict_of_padded hBody (by omega) (Nat.zero_le 2)
        (.inl rfl) hLoop hCanonical
      rwa [List.replicate_zero, List.append_nil, hDecoded] at hUnpadded
    · have hCount : (4 - (base64Encode false data).length % 4) % 4 = (3 - data.length % 3) % 3 := by
        have hThree : data.length % 3 = 0 ∨ data.length % 3 = 1 ∨ data.length % 3 = 2 := by omega
        rcases hThree with hZero | hOne | hTwo <;> omega
      have hPadded := decodeBase64Strict_of_padded hBody (by omega) (by omega) (.inr hCount) hLoop
        hCanonical
      rwa [← base64Encode_padded, hDecoded] at hPadded

/-! ## The URL alphabet -/

theorem toUrlAlphabet_of_fromUrlAlphabet {c d : UInt8} (h : fromUrlAlphabet c = some d) :
    toUrlAlphabet d = c := by
  unfold fromUrlAlphabet at h
  split_ifs at h with hSame hMinus hUnder
  · obtain rfl := Option.some.inj h
    have hPlus : c ≠ 43 := by
      rintro rfl
      exact absurd hSame (by decide)
    have hSlash : c ≠ 47 := by
      rintro rfl
      exact absurd hSame (by decide)
    rw [toUrlAlphabet, if_neg hPlus, if_neg hSlash]
  · obtain rfl := Option.some.inj h
    exact hMinus.symm
  · obtain rfl := Option.some.inj h
    exact hUnder.symm

theorem map_toUrlAlphabet_of_mapM {value base64 : Bytes}
    (h : value.mapM fromUrlAlphabet = some base64) : base64.map toUrlAlphabet = value := by
  induction value generalizing base64 with
  | nil =>
      obtain rfl : base64 = [] := by simpa using h.symm
      rfl
  | cons c rest ih =>
      simp only [List.mapM_cons, Option.bind_eq_bind, Option.bind_eq_some_iff, Option.pure_def,
        Option.some.injEq] at h
      obtain ⟨d, hd, base64, hRest, rfl⟩ := h
      rw [List.map_cons, ih hRest, toUrlAlphabet_of_fromUrlAlphabet hd]

/-- The URL decoder accepts the unpadded encoding of a value and nothing else. -/
theorem base64URLDecode_iff {value data : Bytes} (hNonempty : data ≠ []) :
    base64URLDecode value = data ↔ value = base64URLEncode data := by
  constructor
  · intro h
    unfold base64URLDecode at h
    split_ifs at h with hRefused
    · exact absurd h.symm hNonempty
    · cases hAlphabet : value.mapM fromUrlAlphabet with
      | none =>
          rw [hAlphabet] at h
          exact absurd h.symm hNonempty
      | some base64 =>
          rw [hAlphabet] at h
          have hNoPadding := (mapM_fromUrlAlphabet hAlphabet).2.2
          have hText : base64 = base64Encode false data := by
            rcases (decodeBase64Strict_iff hNonempty).mp h with hPlain | hPadded
            · exact hPlain
            · -- without a `=` the padded encoding is the plain one
              rw [hPadded, base64Encode_padded] at hNoPadding ⊢
              cases hCount : (3 - data.length % 3) % 3 with
              | zero => simp
              | succ n => exact absurd (by simp [hCount, List.replicate_succ]) hNoPadding
          rw [base64URLEncode, ← hText, map_toUrlAlphabet_of_mapM hAlphabet]
  · rintro rfl
    exact base64URLDecode_encode hNonempty

/-! ## The accumulator -/

/-- The locals of the decoding loop, with an accumulator of any size. -/
structure WideState where
  accumulator : Nat := 0
  bits : Nat := 0
  decoded : Bytes := []

def wideStep (s : WideState) (value : UInt32) : WideState :=
  let accumulator := s.accumulator * 64 + value.toNat
  let bits := s.bits + 6
  if 8 ≤ bits then
    { accumulator
      bits := bits - 8
      decoded := s.decoded ++ [UInt8.ofNat (accumulator / 2 ^ (bits - 8))] }
  else { accumulator, bits, decoded := s.decoded }

def wideLoop : WideState → Bytes → Option WideState
  | s, [] => some s
  | s, c :: rest =>
      match base64Value c with
      | none => none
      | some value => wideLoop (wideStep s value) rest

/-- The 32 bits are the lowest ones of the wide accumulator, and fewer than eight of
them are still needed. -/
structure Truncates (s : DecodeState) (w : WideState) : Prop where
  accumulator : s.accumulator.toNat = w.accumulator % 2 ^ 32
  bits : s.bits = w.bits
  few : s.bits < 8
  decoded : s.decoded = w.decoded

/-- A byte within the lowest 32 bits does not depend on those above them. -/
theorem mod_div_mod {n : Nat} (hn : n ≤ 24) (x : Nat) :
    x % 2 ^ 32 / 2 ^ n % 2 ^ 8 = x / 2 ^ n % 2 ^ 8 := by
  have hSplit : 2 ^ 32 = 2 ^ n * 2 ^ (32 - n) := by
    rw [← Nat.pow_add, Nat.add_sub_cancel' (by omega)]
  have hDvd : 2 ^ 8 ∣ 2 ^ (32 - n) := Nat.pow_dvd_pow 2 (by omega)
  rw [hSplit, Nat.mod_mul_right_div_self, Nat.mod_mod_of_dvd _ hDvd]

theorem Truncates.step {s : DecodeState} {w : WideState} (h : Truncates s w) {v : UInt32}
    (hv : v.toNat < 64) : Truncates (decodeStep s v) (wideStep w v) := by
  obtain ⟨hAccumulator, hBits, hFew, hDecoded⟩ := h
  have hPushed : (s.accumulator <<< 6 ||| v).toNat = (w.accumulator * 64 + v.toNat) % 2 ^ 32 := by
    have hNarrow := toNat_pushed s.accumulator hv
    rw [pushed] at hNarrow
    rw [hNarrow, hAccumulator]
    omega
  unfold decodeStep wideStep
  dsimp only
  rw [hBits] at hFew ⊢
  by_cases hByte : 8 ≤ w.bits + 6
  · rw [if_pos hByte, if_pos hByte]
    refine ⟨hPushed, rfl, by show w.bits + 6 - 8 < 8; omega, ?_⟩
    -- the byte that leaves lies within the lowest 14 bits
    have hYield : (((s.accumulator <<< 6 ||| v) >>> (w.bits + 6 - 8).toUInt32) &&& 0xff).toUInt8 =
        UInt8.ofNat ((w.accumulator * 64 + v.toNat) / 2 ^ (w.bits + 6 - 8)) := by
      apply UInt8.toNat_inj.mp
      rw [toNat_yield (by omega), hPushed, UInt8.toNat_ofNat']
      exact mod_div_mod (by omega) _
    show s.decoded ++ [_] = w.decoded ++ [_]
    rw [hYield, hDecoded]
  · rw [if_neg hByte, if_neg hByte]
    exact ⟨hPushed, rfl, Nat.lt_of_not_le hByte, hDecoded⟩

/-- Shifting the accumulator without masking it loses nothing: with an accumulator that
keeps everything the loop yields the same bytes. -/
theorem Truncates.loop {s : DecodeState} {w : WideState} (h : Truncates s w) (input : Bytes) :
    (decodeLoop s input).map (·.decoded) = (wideLoop w input).map (·.decoded) := by
  induction input generalizing s w with
  | nil =>
      rw [decodeLoop, wideLoop, Option.map_some, Option.map_some, h.decoded]
  | cons c rest ih =>
      rw [decodeLoop, wideLoop]
      cases hValue : base64Value c with
      | none => rfl
      | some v => exact ih (h.step (of_base64Value hValue).1)

/-! ## The codec -/

/-- Decoding and encoding are inverse to each other, on the texts that are encodings; all
other texts decode to nothing, and the accumulator is wide enough for every input. -/
theorem base64_exact :
    (∀ value data, (base64URLDecode value = data ∧ data ≠ []) ↔
      (data ≠ [] ∧ value = base64URLEncode data)) ∧
    (∀ value data, (base64Decode value = data ∧ data ≠ []) ↔
      (data ≠ [] ∧ (value = base64Encode false data ∨ value = base64Encode true data))) ∧
    (∀ value value', base64URLDecode value ≠ [] →
      base64URLDecode value = base64URLDecode value' → value = value') ∧
    (∀ value value', (61 : UInt8) ∉ value → (61 : UInt8) ∉ value' → base64Decode value ≠ [] →
      base64Decode value = base64Decode value' → value = value') ∧
    (∀ value, (∀ data, data ≠ [] → value ≠ base64URLEncode data) → base64URLDecode value = []) ∧
    (∀ value, (∀ data, data ≠ [] → value ≠ base64Encode false data ∧
      value ≠ base64Encode true data) → base64Decode value = []) ∧
    (∀ input, (decodeLoop {} input).map (·.decoded) = (wideLoop {} input).map (·.decoded)) := by
  have hPlain : ∀ value, (61 : UInt8) ∉ value → base64Decode value ≠ [] →
      value = base64Encode false (base64Decode value) := fun value hNoPadding hSome => by
    rcases (decodeBase64Strict_iff hSome).mp rfl with hText | hText
    · exact hText
    · rw [base64Encode_padded] at hText
      cases hCount : (3 - (base64Decode value).length % 3) % 3 with
      | zero => simpa [hCount] using hText
      | succ n =>
          rw [hText, hCount] at hNoPadding
          exact absurd (by simp [List.replicate_succ]) hNoPadding
  refine ⟨fun value data => ?_, fun value data => ?_, fun value value' hSome hSame => ?_,
    fun value value' hValue hValue' hSome hSame => ?_, fun value hOther => ?_,
    fun value hOther => ?_, (Truncates.mk rfl rfl (by decide) rfl).loop⟩
  · rw [and_comm]
    exact and_congr_right base64URLDecode_iff
  · rw [and_comm]
    exact and_congr_right decodeBase64Strict_iff
  · have hText := (base64URLDecode_iff hSome).mp rfl
    rw [hSame] at hText hSome
    exact hText.trans ((base64URLDecode_iff hSome).mp rfl).symm
  · have hText := hPlain value hValue hSome
    rw [hSame] at hText hSome
    exact hText.trans (hPlain value' hValue' hSome).symm
  · by_contra hSome
    exact hOther _ hSome ((base64URLDecode_iff hSome).mp rfl)
  · by_contra hSome
    rcases (decodeBase64Strict_iff hSome).mp rfl with hText | hText
    · exact (hOther _ hSome).1 hText
    · exact (hOther _ hSome).2 hText

end Convert
end WindowsFidoLogon
