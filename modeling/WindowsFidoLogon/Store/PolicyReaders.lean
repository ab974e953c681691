import WindowsFidoLogon.Store.PublishedPolicy
import WindowsFidoLogon.Store.SaveWindow

/-!
# Whether readers find the vault's policy

The policy has three readers: `ReadEnforcedSids`, `IsSidEnforced` and the flag of the
Credential Provider Filter.  They find what the vault says exactly when none of the
SIDs to enforce contains a NUL, which is where the list is taken apart.
-/

namespace WindowsFidoLogon

open Text Program

namespace LocalCredentialStore

open RegistryReader

variable {P : Platform} {E : Environment}

/-- The SIDs of the accounts that a vault enforces. -/
def enforcedSids (v : Vault) : List WString :=
  (v.accounts.filter (·.enforced)).map (·.sid)

/-- The three readers find the policy of the vault. -/
structure PolicyRead (E : Environment) (v : Vault) (m : Machine) : Prop where
  list : (readEnforcedSids E m).1 = .returned (enforcedSids v)
  member : ∀ sid, ∃ found, (isSidEnforced E sid m).1 = .returned found ∧
    (found = true ↔ ∃ a ∈ v.accounts, a.enforced = true ∧ wcsicmpEq a.sid sid = true)
  filter : (readEnableFilter E m).1 = .returned (hasEnforcedAccounts v)

theorem mem_enforcedSids {v : Vault} {sid : WString} :
    sid ∈ enforcedSids v ↔ ∃ a ∈ v.accounts, a.enforced = true ∧ a.sid = sid := by
  simp [enforcedSids, and_assoc]

theorem enforcedSids_eq_nil {v : Vault} :
    enforcedSids v = [] ↔ hasEnforcedAccounts v = false := by
  simp [enforcedSids, hasEnforcedAccounts]

theorem notMem_of_mem_splitOn {w piece : WString} (h : piece ∈ w.splitOn 0) :
    (0 : UInt16) ∉ piece := by
  induction w generalizing piece with
  | nil =>
      rw [List.splitOn_nil, List.mem_singleton] at h
      rw [h]
      nofun
  | cons c w ih =>
      rw [List.splitOn_cons_eq_if_modifyHead] at h
      split at h
      · rcases List.mem_cons.mp h with rfl | hRest
        · nofun
        · exact ih hRest
      · -- the unit is put before the first piece
        rename_i hUnit
        cases hPieces : w.splitOn 0 with
        | nil => exact absurd hPieces (List.splitOn_ne_nil _ _)
        | cons first rest =>
            rw [hPieces, List.modifyHead_cons] at h
            have hFirst : (0 : UInt16) ∉ first := ih (by rw [hPieces]; exact List.mem_cons_self)
            rcases List.mem_cons.mp h with rfl | hRest
            · rw [List.mem_cons, not_or]
              exact ⟨fun hZero => hUnit (by rw [← hZero]; rfl), hFirst⟩
            · exact ih (by rw [hPieces]; exact List.mem_cons_of_mem _ hRest)

theorem flatMap_splitOn {ws : List WString} (h : ∀ w ∈ ws, (0 : UInt16) ∉ w) :
    ws.flatMap (List.splitOn 0) = ws := by
  induction ws with
  | nil => rfl
  | cons w ws ih =>
      rw [List.flatMap_cons, List.splitOn_eq_singleton (h w List.mem_cons_self),
        ih fun other hOther => h other (List.mem_cons_of_mem _ hOther), List.singleton_append]

/-- The pieces that can be read back are the SIDs themselves exactly when no SID has a
NUL. -/
theorem legibleSids_eq_iff {v : Vault} (hValid : isVaultValid P v = true) :
    legibleSids v = enforcedSids v ↔ ∀ sid ∈ enforcedSids v, (0 : UInt16) ∉ sid := by
  constructor
  · intro h sid hSid
    rw [← h] at hSid
    obtain ⟨whole, -, hPiece⟩ := List.mem_flatMap.mp (List.takeWhile_subset _ hSid)
    exact notMem_of_mem_splitOn hPiece
  · intro h
    show ((enforcedSids v).flatMap (List.splitOn 0)).takeWhile (· ≠ []) = _
    rw [flatMap_splitOn h, List.takeWhile_eq_self_iff]
    intro sid hSid
    obtain ⟨a, hMem, -, rfl⟩ := mem_enforcedSids.mp hSid
    exact decide_eq_true ((isVaultValid_iff.mp hValid).accounts a hMem).sid_ne

/-- The flag that the Filter reads. -/
theorem getBool_enableFilterValue (v : Vault) :
    getBool (some (enableFilterValue v)) = hasEnforcedAccounts v := by
  unfold getBool enableFilterValue
  cases hasEnforcedAccounts v <;> rfl

/-- The registry holds the policy of the vault, and a reader finds it exactly when it
can read the registry, if there is something to find, and no SID has a NUL. -/
theorem policyRead_iff {v : Vault} {m n : Machine} (hValid : isVaultValid P v = true)
    (hPublished : synchronizeEnforcedRegistry E v m = (.returned (.ok ()), n)) :
    PolicyRead E v n ↔
      (∀ a ∈ v.accounts, a.enforced = true → (0 : UInt16) ∉ a.sid) ∧
        (E.registryReadFails n.tick = true → hasEnforcedAccounts v = false) := by
  have hRegistry : n.registry = publishedPolicy v :=
    ((meets_synchronizeEnforcedRegistry v m).of_eq hPublished).2.2.2
  have hList : (readEnforcedSids E n).1 =
      .returned (if E.registryReadFails n.tick then [] else legibleSids v) := by
    unfold readEnforcedSids
    rw [hRegistry]
    exact congrArg _ (congrArg _ (getMultiSZ_enforcedSidsValue v))
  have hMember : ∀ sid, (isSidEnforced E sid n).1 =
      .returned ((if E.registryReadFails n.tick then [] else legibleSids v).any
        fun value => wcsicmpEq value sid) := fun sid => by
    unfold isSidEnforced
    rw [bind_returned (Prod.ext hList rfl)]
    rfl
  have hFilter : (readEnableFilter E n).1 =
      .returned (if E.registryReadFails n.tick then false else hasEnforcedAccounts v) := by
    unfold readEnableFilter
    rw [hRegistry]
    exact congrArg _ (congrArg _ (getBool_enableFilterValue v))
  have hNul : (∀ a ∈ v.accounts, a.enforced = true → (0 : UInt16) ∉ a.sid) ↔
      ∀ sid ∈ enforcedSids v, (0 : UInt16) ∉ sid := by
    constructor
    · intro h sid hSid
      obtain ⟨a, hMem, hEnforced, rfl⟩ := mem_enforcedSids.mp hSid
      exact h a hMem hEnforced
    · exact fun h a hMem hEnforced => h a.sid (mem_enforcedSids.mpr ⟨a, hMem, hEnforced, rfl⟩)
  rw [hNul]
  constructor
  · intro hRead
    have hSids := Outcome.returned.inj (hList.symm.trans hRead.list)
    cases hFails : E.registryReadFails n.tick with
    | false =>
        rw [hFails, if_neg Bool.false_ne_true] at hSids
        exact ⟨(legibleSids_eq_iff hValid).mp hSids, nofun⟩
    | true =>
        rw [hFails, if_pos rfl] at hSids
        rw [← hSids]
        exact ⟨nofun, fun _ => enforcedSids_eq_nil.mp hSids.symm⟩
  · rintro ⟨hClean, hReadable⟩
    have hSids : (if E.registryReadFails n.tick then [] else legibleSids v) = enforcedSids v := by
      split
      · rename_i hFails
        exact (enforcedSids_eq_nil.mpr (hReadable hFails)).symm
      · exact (legibleSids_eq_iff hValid).mpr hClean
    refine ⟨hList.trans (congrArg _ hSids), fun sid => ⟨_, hMember sid, ?_⟩, hFilter.trans ?_⟩
    · rw [hSids, List.any_eq_true]
      constructor
      · rintro ⟨value, hValue, hSame⟩
        obtain ⟨a, hMem, hEnforced, rfl⟩ := mem_enforcedSids.mp hValue
        exact ⟨a, hMem, hEnforced, hSame⟩
      · rintro ⟨a, hMem, hEnforced, hSame⟩
        exact ⟨a.sid, mem_enforcedSids.mpr ⟨a, hMem, hEnforced, rfl⟩, hSame⟩
    · split
      · rename_i hFails
        rw [hReadable hFails]
      · rfl

section Example

open Reference

/-- The policy of a vault that enforces `alice` is found. -/
theorem policyRead_example : PolicyRead calm (vault [alice true [credential (text "AAAA")]])
    (synchronizeEnforcedRegistry calm (vault [alice true [credential (text "AAAA")]])
      (machine none none)).2 :=
  (policyRead_iff (P := platform {}) (m := machine none none) (by decide +kernel) rfl).mpr
    ⟨by decide +kernel, nofun⟩

/-- The NUL behind the SID of `bob` hides `alice` from every reader. -/
theorem policyRead_counterexample :
    ¬ ∀ (P : Platform) (E : Environment) (v : Vault) (m n : Machine), isVaultValid P v = true →
      synchronizeEnforcedRegistry E v m = (.returned (.ok ()), n) → PolicyRead E v n := by
  intro h
  obtain ⟨found, hFound, hIff⟩ := (h (platform {}) calm hidingVault (machine none none) _
    (by decide +kernel) rfl).member aliceSid
  have hHidden : (isSidEnforced calm aliceSid (synchronizeEnforcedRegistry calm hidingVault
      (machine none none)).2).1 = .returned false := by decide +kernel
  have hEnforced : ∃ a ∈ hidingVault.accounts,
      a.enforced = true ∧ wcsicmpEq a.sid aliceSid = true := by decide +kernel
  obtain rfl := Outcome.returned.inj (hFound.symm.trans hHidden)
  exact Bool.false_ne_true (hIff.mpr hEnforced)

end Example

end LocalCredentialStore
end WindowsFidoLogon
