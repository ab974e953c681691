import WindowsFidoLogon.Store.SaveFiles
import WindowsFidoLogon.Store.Stored

/-!
# Which vaults survive a `Save` and a `Load`

`Save` takes every vault that `IsVaultValid` accepts and `dump` can print, and
`Load` refuses more: text that has no UTF-8 form was replaced by the empty string when
the vault was encoded, and a file over 4 MiB is not read at all.
-/

namespace WindowsFidoLogon
namespace LocalCredentialStore

open Program

variable {P : Platform} {E : Environment}

/-- The text of the accounts survives the way to UTF-8 and back. -/
def WellFormedText (P : Platform) (v : Vault) : Prop :=
  ∀ a ∈ v.accounts, WellFormed P a.sid ∧ WellFormed P a.username

/-! ## Text from a file -/

/-- What comes from UTF-8 is well-formed. -/
theorem wellFormed_toWString (hT : P.Transcodes) (b : Bytes) :
    WellFormed P (Convert.toWString P b) := by
  unfold Convert.toWString
  split_ifs
  · exact .inl rfl
  · exact .inl rfl
  · cases hw : P.multiByteToWideChar b with
    | none => exact .inl rfl
    | some w => exact .inr ⟨b, (hT.inverse b w).mp hw⟩

theorem wellFormed_accountFromJson (hT : P.Transcodes) {j : Json} {a : AccountRecord}
    (h : accountFromJson P j = .ok a) : WellFormed P a.sid ∧ WellFormed P a.username := by
  unfold accountFromJson at h
  simp only [except_bind_eq_ok] at h
  obtain ⟨_, -, _, -, _, -, _, -, _, -, _, -, h⟩ := h
  cases h
  exact ⟨wellFormed_toWString hT _, wellFormed_toWString hT _⟩

/-- The text of a vault that was loaded. -/
theorem wellFormedText_of_vaultOf (hT : P.Transcodes) {content : Bytes} {v : Vault}
    (h : vaultOf P content = .ok v) : WellFormedText P v := by
  unfold vaultOf at h
  obtain ⟨plaintext, -, h⟩ := except_bind_eq_ok.mp h
  split at h
  · cases h
  rename_i parsed hParsed
  split_ifs at h
  cases h
  obtain ⟨j, -, hVault⟩ := except_bind_eq_ok.mp hParsed
  unfold vaultFromJson at hVault
  simp only [except_bind_eq_ok] at hVault
  obtain ⟨_, -, schemaVersion, -, hVault⟩ := hVault
  split_ifs at hVault
  · cases hVault
  simp only [except_bind_eq_ok] at hVault
  obtain ⟨_, -, _, -, _, -, _, -, _, -, accounts, hAccounts, hVault⟩ := hVault
  cases hVault
  intro a ha
  obtain ⟨item, -, hItem⟩ := of_mem_mapM_ok hAccounts ha
  exact wellFormed_accountFromJson hT hItem

theorem wellFormedText_of_loadedVault (hT : P.Transcodes) {d : Disk} {v : Vault}
    (h : loadedVault P d = some v) : WellFormedText P v := by
  rcases Option.or_eq_some_iff.mp h with hPrimary | ⟨-, hBackup⟩
  · obtain ⟨c, -, hc⟩ := vaultIn_eq_some.mp hPrimary
    exact wellFormedText_of_vaultOf hT hc
  · obtain ⟨c, -, hc⟩ := vaultIn_eq_some.mp hBackup
    exact wellFormedText_of_vaultOf hT hc

/-- A vault that comes back as it was had well-formed text. -/
theorem wellFormedText_of_transcodedVault {v : Vault} (h : transcodedVault P v = v) :
    WellFormedText P v := by
  have hSame : v.accounts.map (transcodedAccount P) = v.accounts.map id := by
    rw [List.map_id]
    exact congrArg Vault.accounts h
  -- text that is not well-formed would have become empty
  have hText : ∀ w, transcoded P w = w → WellFormed P w := fun w hw => by
    by_contra hNot
    exact hNot (.inl (hw.symm.trans (transcoded_of_not_wellFormed hNot)))
  intro a ha
  have hAccount : transcodedAccount P a = a := List.map_inj_left.mp hSame a ha
  exact ⟨hText _ (congrArg AccountRecord.sid hAccount),
    hText _ (congrArg AccountRecord.username hAccount)⟩

/-! ## The file that was saved -/

/-- After a `Save` that returned true, a load returns the vault of the new file, or if
that is refused what it would have returned before. -/
theorem loadedVault_save (hReads : ReadsSucceed E) {v : Vault} {m n : Machine} {plaintext : Bytes}
    (hDump : P.dump (vaultToJson P v) = .ok plaintext)
    (hSaved : save P E v m = (.returned (.ok ()), n)) :
    loadedVault P n.disk =
      ((vaultOf P (P.cryptProtectData (m.tick + 1) plaintext)).toOption.or
        (loadedVault P m.disk)) := by
  obtain ⟨-, content, ⟨-, plaintext', hDump', hContent⟩, hPrimary⟩ :=
    ((meets_save_saved v m).of_eq hSaved).saved rfl
  obtain rfl : plaintext = plaintext' := Except.ok.inj (hDump.symm.trans hDump')
  have hNew : vaultIn P n.disk .primary =
      (vaultOf P (P.cryptProtectData (m.tick + 1) plaintext)).toOption := by
    rw [vaultIn, hPrimary, hContent]
    rfl
  cases hLoaded : loadedVault P m.disk with
  | none =>
      rw [Option.or_none]
      rcases (save_of_none hReads hLoaded hDump).of_eq hSaved with hNone | hPlaced
      · rw [hNone, ← hNew, (loadedVault_eq_none.mp hNone).1]
      · exact hPlaced
  | some v₀ =>
      obtain ⟨w, hw, hEnd⟩ := (save_ends hReads hLoaded).of_eq hSaved
      have hReplaced : w = replacement P v₀ v m.tick := hEnd.1
      rw [hw, hReplaced, replacement, hDump]
      dsimp only
      unfold opensAs
      cases (vaultOf P (P.cryptProtectData (m.tick + 1) plaintext)).toOption <;> rfl

/-- What a vault has to be like to come back from its file: its text is well-formed,
and its file is not too long, or the vault was stored before. -/
structure Restorable (P : Platform) (v : Vault) (m : Machine) : Prop where
  text : WellFormedText P v
  size : (∀ plaintext, P.dump (vaultToJson P v) = .ok plaintext →
    (P.cryptProtectData (m.tick + 1) plaintext).length ≤ maximumFileBytes) ∨
      loadedVault P m.disk = some v

theorem load_save_iff (hT : P.Transcodes) (hProtects : P.Protects) (hParses : P.ParsesDumps)
    (hReads : ReadsSucceed E) {v : Vault} {m n : Machine}
    (hSaved : save P E v m = (.returned (.ok ()), n)) :
    (load P E n).1 = .returned (.ok v) ↔ Restorable P v m := by
  obtain ⟨-, content, ⟨hValid, plaintext, hDump, -⟩, -⟩ :=
    ((meets_save_saved v m).of_eq hSaved).saved rfl
  rw [load_returned_iff hReads, loadedVault_save hReads hDump hSaved,
    vaultOf_seal hProtects hParses hValid hDump]
  have hSize : (∀ text, P.dump (vaultToJson P v) = .ok text →
      (P.cryptProtectData (m.tick + 1) text).length ≤ maximumFileBytes) ↔
        ¬ (P.cryptProtectData (m.tick + 1) plaintext).length > maximumFileBytes := by
    constructor
    · exact fun h => Nat.not_lt.mpr (h plaintext hDump)
    · rintro h text hText
      obtain rfl : plaintext = text := Except.ok.inj (hDump.symm.trans hText)
      exact Nat.not_lt.mp h
  constructor
  · intro h
    split_ifs at h with hLong hStill
    · exact ⟨wellFormedText_of_loadedVault hT h, .inr h⟩
    · exact ⟨wellFormedText_of_transcodedVault (Option.some.inj h), .inl (hSize.mpr hLong)⟩
    · exact ⟨wellFormedText_of_loadedVault hT h, .inr h⟩
  · intro h
    rw [transcodedVault_of_wellFormed hT hValid h.text, if_pos hValid]
    split_ifs with hLong
    · exact h.size.resolve_left fun hShort => hSize.mp hShort hLong
    · rfl

section Example

open Reference

theorem save_calm {v : Vault} (hAccepted : Accepted (platform {}) v) (m : Machine) :
    save (platform {}) calm v m = (.returned (.ok ()), (save (platform {}) calm v m).2) := by
  have hSucceeds : (save (platform {}) calm v m).1 = .returned (.ok ()) :=
    save_of_writesSucceed (fun _ => rfl) hAccepted m
  exact Prod.ext hSucceeds rfl

theorem accepted_enforcingVault : Accepted (platform {}) enforcingVault :=
  ⟨by decide +kernel, _, rfl⟩

/-- The first enforcing vault comes back. -/
theorem load_save_example :
    (load (platform {}) calm (save (platform {}) calm enforcingVault emptyMachine).2).1 =
      .returned (.ok enforcingVault) := by
  refine (load_save_iff (transcodes _) (protects _) (parsesDumps _) (fun _ _ => rfl)
    (save_calm accepted_enforcingVault emptyMachine)).mpr ⟨fun a ha => ?_, .inl fun plaintext hDump => ?_⟩
  · obtain rfl : a = alice true [credential (Text.text "AAAA")] := List.mem_singleton.mp ha
    exact ⟨.inr ⟨_, rfl⟩, .inr ⟨_, rfl⟩⟩
  · obtain ⟨-, rfl⟩ := of_dump_eq_ok hDump
    have hShort : (vaultToJson (platform {}) enforcingVault).render.length < 1000 := by
      decide +kernel
    show (1 :: (vaultToJson (platform {}) enforcingVault).render).length ≤ maximumFileBytes
    rw [List.length_cons, maximumFileBytes]
    omega

/-- A vault in which the account is named by half of a surrogate pair. -/
def surrogateVault : Vault := vault [{ alice false [] with username := [0xD800] }]

/-- It is saved, and loaded without the name. -/
theorem load_save_counterexample :
    ¬ ∀ (P : Platform) (E : Environment) (v : Vault) (m n : Machine), P.Transcodes → P.Protects →
      P.ParsesDumps → ReadsSucceed E → save P E v m = (.returned (.ok ()), n) →
      (load P E n).1 = .returned (.ok v) := by
  intro h
  have hAccepted : Accepted (platform {}) surrogateVault := ⟨by decide +kernel, _, rfl⟩
  have hLoad := h (platform {}) calm surrogateVault emptyMachine _ (transcodes _) (protects _)
    (parsesDumps _) (fun _ _ => rfl) (save_calm hAccepted emptyMachine)
  have hLost : (load (platform {}) calm (save (platform {}) calm surrogateVault emptyMachine).2).1 =
      .returned (.ok (vault [{ alice false [] with username := [] }])) := by decide +kernel
  rw [hLost] at hLoad
  exact absurd hLoad (by decide)

end Example

end LocalCredentialStore
end WindowsFidoLogon
