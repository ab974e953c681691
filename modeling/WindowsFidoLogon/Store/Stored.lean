import WindowsFidoLogon.Store.Accounts
import WindowsFidoLogon.Store.Progress
import WindowsFidoLogon.Store.SaveWindow

/-!
# The accounts in store

`storedAccounts` is the table of accounts that the files hold: that of the vault a
`Load` returns, and the empty one as long as there is no vault.  As long as files that
are intact can be read, every load returns this table, and a save replaces it by the
accounts it was given, or leaves it alone, whatever fails in between.
-/

namespace WindowsFidoLogon
namespace LocalCredentialStore

open Program Environment Machine

variable {P : Platform} {E : Environment}

/-- The accounts of the vault that is loaded, if there is one. -/
def storedAccounts (P : Platform) (d : Disk) : List AccountRecord :=
  ((loadedVault P d).map (·.accounts)).getD []

theorem storedAccounts_of_loadedVault {d : Disk} {v : Vault} (h : loadedVault P d = some v) :
    storedAccounts P d = v.accounts := by
  rw [storedAccounts, h]
  rfl

theorem storedAccounts_of_none {d : Disk} (h : loadedVault P d = none) :
    storedAccounts P d = [] := by
  rw [storedAccounts, h]
  rfl

/-! ## The first vault -/

theorem loadedVault_eq_none {d : Disk} :
    loadedVault P d = none ↔ vaultIn P d .primary = none ∧ vaultIn P d .backup = none := by
  unfold loadedVault
  cases vaultIn P d .primary with
  | none => simp
  | some v => simp

/-- Where no vault is loaded, `Save` finds none to fall back to. -/
theorem meets_keepBackup_of_none (hReads : ReadsSucceed E) {m : Machine}
    (hNone : loadedVault P m.disk = none) :
    Meets (keepBackup P E) m fun o n => n.disk = m.disk ∧ o = .returned (.ok none) := by
  obtain ⟨hPrimary, hBackup⟩ := loadedVault_eq_none.mp hNone
  unfold keepBackup
  rw [meets_bind]
  refine (meets_readValidVault_of_readsSucceed hReads .primary m).mono ?_
  rintro _ n ⟨hDisk, _, _, r, rfl, hr⟩
  rw [hPrimary] at hr
  cases r with
  | ok v => cases hr
  | error _ =>
      dsimp only
      rw [meets_bind]
      refine (meets_readValidVault_of_readsSucceed hReads .backup n).mono ?_
      rintro _ k ⟨hDisk', _, _, r', rfl, hr'⟩
      rw [hDisk, hBackup] at hr'
      cases r' with
      | ok v => cases hr'
      | error _ => exact ⟨hDisk'.trans hDisk, rfl⟩

/-- Nothing is in place yet, or the file with this content is. -/
def Placed (P : Platform) (content : Bytes) (d : Disk) : Prop :=
  loadedVault P d = none ∨ loadedVault P d = (vaultOf P content).toOption

theorem Placed.congr {content : Bytes} {d d' : Disk} (h : Placed P content d)
    (hp : d' .primary = d .primary) (hb : d' .backup = d .backup) : Placed P content d' := by
  unfold Placed
  rw [loadedVault_congr hp hb]
  exact h

/-- Giving up with no vault to fall back to changes nothing that is loaded. -/
theorem meets_giveUp {content : Bytes} {m : Machine} (e : DWORD) (h : Placed P content m.disk) :
    Meets (do republish E none; E.deleteFile .temporary; return (.error e : Except DWORD Unit)) m
      fun _ n => Placed P content n.disk := by
  have hStill : ∀ n : Machine, n.disk .primary = m.disk .primary →
      n.disk .backup = m.disk .backup → Placed P content n.disk := fun n hp hb => h.congr hp hb
  show Meets (E.deleteFile .temporary >>= fun _ => Pure.pure (Except.error e)) m _
  rw [meets_bind]
  exact meets_deleteFile (hStill _ (by simp) (by simp)) (hStill _ rfl rfl) (hStill _ rfl rfl)
    (hStill _ (by simp) (by simp))

theorem meets_replacePrimary_of_none {v : Vault} {m : Machine} {content : Bytes}
    (hNone : loadedVault P m.disk = none) (hContent : m.disk .temporary = some content) :
    Meets (replacePrimary E v none) m fun _ n => Placed P content n.disk := by
  have hBackup : vaultIn P (moved .temporary .primary content m.next).disk .backup = none :=
    (vaultIn_congr (moved_disk_other (by decide) (by decide) content _)).trans
      (loadedVault_eq_none.mp hNone).2
  have hMoved : Placed P content (moved .temporary .primary content m.next).disk := by
    have hPrimary : vaultIn P (moved .temporary .primary content m.next).disk .primary =
        (vaultOf P content).toOption := by
      rw [vaultIn, moved_disk_target (by decide)]
      rfl
    right
    rw [loadedVault, hPrimary, hBackup, Option.or_none]
  unfold replacePrimary
  rw [meets_bind]
  refine meets_moveFile (fun hMissing => ?_) (fun c hc => ?_) (fun e => ?_) (.inl hNone)
    (fun c hc => ?_)
  · rw [hContent] at hMissing
    cases hMissing
  · obtain rfl : content = c := Option.some.inj (hContent.symm.trans hc)
    dsimp only
    split_ifs
    · exact hMoved
    · rw [meets_bind]
      refine (meets_synchronizeEnforcedRegistry v _).mono ?_
      rintro (r | e | _) n ⟨hDisk, _⟩
      · have hHere : Placed P content n.disk := by
          rw [hDisk]
          exact hMoved
        cases r with
        | ok _ => exact hHere
        | error e => exact hHere
      · exact hDisk ▸ hMoved
      · exact hDisk ▸ hMoved
  · dsimp only
    rw [ite_self]
    exact meets_giveUp e (.inl hNone)
  · obtain rfl : content = c := Option.some.inj (hContent.symm.trans hc)
    exact hMoved

/-- Where no vault is loaded, a save puts its file in place or leaves none. -/
theorem save_of_none (hReads : ReadsSucceed E) {v : Vault} {m : Machine} {plaintext : Bytes}
    (hNone : loadedVault P m.disk = none) (hDump : P.dump (vaultToJson P v) = .ok plaintext) :
    Meets (save P E v) m fun _ n =>
      Placed P (P.cryptProtectData (m.tick + 1) plaintext) n.disk := by
  have hStill : ∀ k : Machine, (∀ f, f ≠ .temporary → k.disk f = m.disk f) →
      loadedVault P k.disk = none := fun k hk => by
    rw [loadedVault_congr (hk _ (by decide)) (hk _ (by decide))]
    exact hNone
  unfold save
  split_ifs
  · exact .inl hNone
  rw [meets_bind]
  refine meets_atomicStep ?_ (fun _ => .inl hNone) (.inl hNone) (.inl hNone)
  dsimp only [id]
  rw [hDump, ofExcept_ok, pure_bind, meets_bind]
  set content := P.cryptProtectData m.next.tick plaintext with hContent
  have hWreck : ∀ w, loadedVault P (m.next.next.wreckFile .temporary content w).disk = none :=
    fun w => hStill _ fun f hf => wreckFile_disk_of_ne hf ..
  refine meets_writeProtectedFile ?_ (fun e w => .inl (hWreck w)) (fun w => .inl (hWreck w))
  dsimp only
  rw [meets_bind]
  have hWritten := hStill (m.next.next.setFile .temporary (some content))
    fun f hf => by simp [Function.update_of_ne hf]
  refine (meets_keepBackup_of_none hReads hWritten).mono ?_
  rintro _ n ⟨hDisk, rfl⟩
  have hHere : loadedVault P n.disk = none := by
    rw [hDisk]
    exact hWritten
  have hTemp : n.disk .temporary = some content := by
    rw [hDisk, setFile_disk, Function.update_self]
  dsimp only
  unfold publishAndReplace
  split_ifs
  · rw [meets_bind]
    refine (meets_synchronizeEnforcedRegistry v n).mono ?_
    rintro (r | e | _) k ⟨hDisk', _⟩
    · have hNext : loadedVault P k.disk = none := by
        rw [hDisk']
        exact hHere
      cases r with
      | ok _ => exact meets_replacePrimary_of_none hNext (by rw [hDisk']; exact hTemp)
      | error e => exact meets_giveUp e (.inl hNext)
    · exact .inl (hDisk' ▸ hHere)
    · exact .inl (hDisk' ▸ hHere)
  · exact meets_replacePrimary_of_none hHere hTemp

/-! ## Loads and saves of the table -/

/-- A sealed file that is accepted holds the accounts that were sealed, under the same
SIDs. -/
theorem accounts_of_seal (hT : P.Transcodes) (hProtects : P.Protects) (hParses : P.ParsesDumps)
    {v w : Vault} (hv : isVaultValid P v = true) {salt : Nat} {plaintext : Bytes}
    (hDump : P.dump (vaultToJson P v) = .ok plaintext)
    (hOpen : vaultOf P (P.cryptProtectData salt plaintext) = .ok w) :
    w = transcodedVault P v ∧ ∀ a ∈ v.accounts, transcoded P a.sid = a.sid := by
  rw [vaultOf_seal hProtects hParses hv hDump] at hOpen
  split_ifs at hOpen with hSize hValid
  obtain rfl := Except.ok.inj hOpen
  refine ⟨rfl, fun a ha => ?_⟩
  have hLength := ((isVaultValid_iff.mp hv).accounts a ha).sid_length
  exact transcoded_of_wellFormed hT (by omega)
    ((isVaultValid_transcodedVault_iff hT hv).mp hValid a ha)

/-- A save replaces the table by its accounts or leaves it alone. -/
theorem storedAccounts_save (hT : P.Transcodes) (hProtects : P.Protects) (hParses : P.ParsesDumps)
    (hReads : ReadsSucceed E) (v : Vault) (m : Machine) :
    Meets (save P E v) m fun _ n =>
      storedAccounts P n.disk = storedAccounts P m.disk ∨
        storedAccounts P n.disk = v.accounts.map (transcodedAccount P) ∧
          ∀ a ∈ v.accounts, transcoded P a.sid = a.sid := by
  by_cases hAccepted : Accepted P v
  · obtain ⟨hValid, plaintext, hDump⟩ := hAccepted
    cases hLoaded : loadedVault P m.disk with
    | none =>
        refine (save_of_none hReads hLoaded hDump).mono ?_
        rintro _ n (hNone | hPlaced)
        · exact .inl (by rw [storedAccounts_of_none hNone, storedAccounts_of_none hLoaded])
        · cases hOpen : vaultOf P (P.cryptProtectData (m.tick + 1) plaintext) with
          | error e =>
              rw [hOpen] at hPlaced
              exact .inl (by rw [storedAccounts_of_none hPlaced, storedAccounts_of_none hLoaded])
          | ok w =>
              obtain ⟨rfl, hText⟩ := accounts_of_seal hT hProtects hParses hValid hDump hOpen
              rw [hOpen] at hPlaced
              exact .inr ⟨storedAccounts_of_loadedVault hPlaced, hText⟩
    | some v₀ =>
        have hEnds : Meets (save P E v) m (Ended P v₀ v (replacement P v₀ v m.tick) m) :=
          save_ends hReads hLoaded
        refine hEnds.mono ?_
        rintro o n ⟨w, hw, hEnd⟩
        rw [storedAccounts_of_loadedVault hw, storedAccounts_of_loadedVault hLoaded]
        rcases hEnd.old_or_new with rfl | rfl
        · exact .inl rfl
        · unfold replacement
          rw [hDump]
          dsimp only
          unfold opensAs
          cases hOpen : vaultOf P (P.cryptProtectData (m.tick + 1) plaintext) with
          | error e => exact .inl rfl
          | ok w =>
              obtain ⟨rfl, hText⟩ := accounts_of_seal hT hProtects hParses hValid hDump hOpen
              exact .inr ⟨rfl, hText⟩
  · refine (save_of_not_accepted hAccepted m).mono ?_
    rintro _ n ⟨hDisk, _⟩
    exact .inl (by rw [hDisk])

/-- A load leaves the table alone, and what it returns is the table. -/
theorem storedAccounts_loadOrCreate (hT : P.Transcodes) (hProtects : P.Protects)
    (hParses : P.ParsesDumps) (hReads : ReadsSucceed E) (m : Machine) :
    Meets (loadOrCreate P E) m fun o n =>
      storedAccounts P n.disk = storedAccounts P m.disk ∧
        ∀ v, o = .returned (.ok v) → storedAccounts P m.disk = v.accounts := by
  unfold loadOrCreate
  rw [meets_bind]
  refine (meets_load_of_readsSucceed hReads m).mono ?_
  rintro _ n ⟨hDisk, r, rfl, hr⟩
  have hSame : storedAccounts P n.disk = storedAccounts P m.disk := by rw [hDisk]
  cases r with
  | ok v =>
      refine ⟨hSame, fun w hw => ?_⟩
      cases hw
      exact storedAccounts_of_loadedVault hr.symm
  | error e =>
      have hEmpty : storedAccounts P m.disk = [] := storedAccounts_of_none hr.symm
      dsimp only
      split_ifs
      · exact ⟨hSame, fun w hw => by cases hw⟩
      have hId : Meets (generateHexId E) n fun _ k => Quiet n k := quiet_generateHexId n
      rw [meets_bind]
      refine hId.mono ?_
      intro o k hQuiet
      rw [← hQuiet.disk] at hSame
      rcases o with machineId | what | _
      · dsimp only
        split_ifs
        · exact ⟨hSame, fun w hw => by cases hw⟩
        rw [meets_bind, meets_record]
        dsimp only
        rw [meets_bind]
        -- the new vault has no accounts, like the store before it
        refine (storedAccounts_save hT hProtects hParses hReads _ _).mono ?_
        intro o l hSaved
        have hStill : storedAccounts P l.disk = storedAccounts P m.disk := by
          rcases hSaved with hOld | ⟨hNew, _⟩
          · rw [hOld, record_disk, hSame]
          · rw [hNew, hEmpty]
            rfl
        rcases o with (e' | _) | what | _
        · exact ⟨hStill, fun w hw => by cases hw⟩
        · refine ⟨hStill, fun w hw => ?_⟩
          cases hw
          exact hEmpty
        · exact ⟨hStill, fun w hw => by cases hw⟩
        · exact ⟨hStill, fun w hw => by cases hw⟩
      · exact ⟨hSame, fun w hw => by cases hw⟩
      · exact ⟨hSame, fun w hw => by cases hw⟩

end LocalCredentialStore
end WindowsFidoLogon
