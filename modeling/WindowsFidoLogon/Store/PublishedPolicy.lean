import WindowsFidoLogon.Model.LocalCredentialStore

/-!
# What a reader of the published policy sees

`SynchronizeEnforcedRegistry` writes the SIDs of the enforced accounts one after
the other, each with a NUL behind it, and `GetMultiSZ` takes the data apart at its
NULs and stops at the first empty string.  `getMultiSZ_enforcedSidsValue` says what
comes out: the pieces of the SIDs before the first empty piece.  For SIDs without
a NUL these are the SIDs themselves.
-/

namespace WindowsFidoLogon

open Text

namespace RegistryReader

/-- A code unit is put together again from its two bytes. -/
theorem joinBytes (c : UInt16) : c.toUInt8.toUInt16 ||| ((c >>> 8).toUInt8.toUInt16 <<< 8) = c := by
  have hRange := c.toNat_lt
  have hHigh : (c.toNat / 256 % 256) <<< 8 % 65536 = (c.toNat / 256 % 256) <<< 8 := by
    rw [Nat.shiftLeft_eq]
    omega
  have hJoin : c.toNat % 256 ||| (c.toNat / 256 % 256) <<< 8 = c.toNat := by
    rw [Nat.or_comm, ← Nat.shiftLeft_add_eq_or_of_lt (by omega), Nat.shiftLeft_eq]
    omega
  apply UInt16.toNat_inj.mp
  simp only [UInt16.toNat_or, UInt8.toNat_toUInt16, UInt16.toNat_toUInt8, UInt16.toNat_shiftLeft,
    UInt16.toNat_shiftRight, UInt16.reduceToNat, Nat.shiftRight_eq_div_pow]
  exact (congrArg (c.toNat % 256 ||| ·) hHigh).trans hJoin

theorem toWords_toBytes (w : WString) : toWords (toBytes w) = w := by
  induction w with
  | nil => rfl
  | cons c w ih => rw [toBytes, toWords, joinBytes, ih]

theorem length_toBytes (w : WString) : (toBytes w).length = 2 * w.length := by
  induction w with
  | nil => rfl
  | cons c w ih =>
      simp only [toBytes, List.length_cons, ih]
      omega

/-- The strings a reader collects from pieces, before it goes on with `rest`. -/
def follow : List WString → Option (List WString) → Option (List WString)
  | [], rest => rest
  | piece :: more, rest =>
      if piece = [] then some [] else (follow more rest).map (piece :: ·)

theorem follow_append (ps qs : List WString) (rest : Option (List WString)) :
    follow (ps ++ qs) rest = follow ps (follow qs rest) := by
  induction ps with
  | nil => rfl
  | cons p ps ih => simp [follow, ih]

theorem follow_nil (ps : List WString) :
    follow ps (some []) = some (ps.takeWhile (· ≠ [])) := by
  induction ps with
  | nil => rfl
  | cons p ps ih =>
      by_cases hp : p = []
      · simp [follow, hp]
      · simp [follow, hp, ih]

/-- The reading loop over one string and the NUL behind it. -/
theorem readStrings_append (w rest current : WString) :
    readStrings current (w ++ 0 :: rest) =
      follow ((w.splitOn 0).modifyHead (current ++ ·)) (readStrings [] rest) := by
  induction w generalizing current with
  | nil => simp [readStrings, follow]
  | cons c w ih =>
      rw [List.cons_append, readStrings, List.splitOn_cons_eq_if_modifyHead]
      by_cases hc : c = 0
      · subst hc
        have hHead : (w.splitOn 0).modifyHead ([] ++ ·) = w.splitOn 0 := by
          cases w.splitOn 0 <;> rfl
        rw [if_pos (BEq.refl 0), ih, hHead]
        simp [follow]
      · have hHead : ((w.splitOn 0).modifyHead (c :: ·)).modifyHead (current ++ ·) =
            (w.splitOn 0).modifyHead (current ++ [c] ++ ·) := by
          cases w.splitOn 0 <;> simp
        rw [if_neg hc, if_neg (by simpa using hc), ih, hHead]

/-- The reading loop over a list of strings, each with a NUL behind it. -/
theorem readStrings_flatMap (sids : List WString) (rest : WString) :
    readStrings [] (sids.flatMap (· ++ [0]) ++ 0 :: rest) =
      some ((sids.flatMap (List.splitOn 0)).takeWhile (· ≠ [])) := by
  have hFollow : readStrings [] (sids.flatMap (· ++ [0]) ++ 0 :: rest) =
      follow (sids.flatMap (List.splitOn 0)) (some []) := by
    induction sids with
    | nil => simp [readStrings, follow]
    | cons sid sids ih =>
        have hText : (sid :: sids).flatMap (· ++ [0]) ++ 0 :: rest =
            sid ++ 0 :: (sids.flatMap (· ++ [0]) ++ 0 :: rest) := by simp
        have hHead : (sid.splitOn 0).modifyHead ([] ++ ·) = sid.splitOn 0 := by
          cases sid.splitOn 0 <;> rfl
        rw [hText, readStrings_append, hHead, ih, ← follow_append, List.flatMap_cons]
  rw [hFollow, follow_nil]

end RegistryReader

namespace LocalCredentialStore

open RegistryReader

/-- The strings that can be read back from the published list of a vault: the
pieces of the SIDs between their NULs, up to the first empty one. -/
def legibleSids (v : Vault) : List WString :=
  (((v.accounts.filter (·.enforced)).map (·.sid)).flatMap (List.splitOn 0)).takeWhile (· ≠ [])

/-- What a reader of the published list gets. -/
theorem getMultiSZ_enforcedSidsValue (v : Vault) :
    getMultiSZ (some (enforcedSidsValue v)) = legibleSids v := by
  set sids := (v.accounts.filter (·.enforced)).map (·.sid) with hSids
  have hUnits : enforcedSidUnits v.accounts = sids.flatMap (· ++ [0]) := by
    rw [hSids, enforcedSidUnits, List.flatMap_map]
  -- the terminator, and the further NULs the buffer ends with
  obtain ⟨more, hMore⟩ : ∃ more, multiBuffer (enforcedSidsValue v).data =
      sids.flatMap (· ++ [0]) ++ 0 :: more := by
    unfold multiBuffer enforcedSidsValue
    simp only [toWords_toBytes, hUnits]
    split_ifs
    · exact ⟨0 :: List.replicate _ 0, by simp; rfl⟩
    · exact ⟨List.replicate _ 0, by simp; rfl⟩
  have hLength : ¬ (enforcedSidsValue v).data.length < 2 := by
    unfold enforcedSidsValue
    simp only [length_toBytes]
    split_ifs <;> simp <;> omega
  have hValue : enforcedSidsValue v = { type := .multiSz, data := (enforcedSidsValue v).data } := rfl
  rw [hValue, getMultiSZ, if_neg hLength, hMore, readStrings_flatMap]
  rfl

end LocalCredentialStore
end WindowsFidoLogon
