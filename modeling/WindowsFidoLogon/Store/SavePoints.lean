import WindowsFidoLogon.Store.Steps

/-!
# The points of a `Save`

What other processes can see of the store is the vault a `Load` would return
and the policy in the registry.  `SavePoint v₀ v₁ w r₀` lists the pairs of the two
through which a `Save` of `v₁` can pass when it starts from the vault `v₀` and
the registry `r₀`, and `w` is the vault that is loaded once the new file is in
place; it is an abstract account of the order in which `Save` publishes, replaces
and compensates.  As a rule `w` is `v₁`.  It is `v₀`, from the backup, when the new
file cannot be read back.

`save_ends` is the refinement: whichever steps fail, and wherever the process
stops, the store is at such a point, and at the promised one when `Save`
returned.
-/

namespace WindowsFidoLogon
namespace LocalCredentialStore

open Program Environment Machine

/-- The vault that `Load` returns when it can read the files there are. -/
def loadedVault (P : Platform) (d : Disk) : Option Vault :=
  (vaultIn P d .primary).or (vaultIn P d .backup)

/-- The registry after the first of the two values was written. -/
def partialPolicy (r : Registry) (v : Vault) : Registry :=
  { r with enforcedSids := some (enforcedSidsValue v) }

/-- The visible states of a `Save` of `v₁` over `v₀`. -/
inductive SavePoint (v₀ v₁ w : Vault) (r₀ : Registry) : Vault → Registry → Prop
  | untouched : SavePoint v₀ v₁ w r₀ v₀ r₀
  /-- half of the new policy stands, the old vault is in place -/
  | announcing : hasEnforcedAccounts v₁ = true → SavePoint v₀ v₁ w r₀ v₀ (partialPolicy r₀ v₁)
  | announced : hasEnforcedAccounts v₁ = true → SavePoint v₀ v₁ w r₀ v₀ (publishedPolicy v₁)
  /-- half of the old policy was restored over an announced one -/
  | revoking {r : Registry} : hasEnforcedAccounts v₁ = true →
      r = r₀ ∨ r = partialPolicy r₀ v₁ ∨ r = publishedPolicy v₁ →
      SavePoint v₀ v₁ w r₀ v₀ (partialPolicy r v₀)
  | restored : SavePoint v₀ v₁ w r₀ v₀ (publishedPolicy v₀)
  | replaced : SavePoint v₀ v₁ w r₀ w (publishedPolicy v₁)
  /-- the new vault is in place, its policy of enforcing nobody is not -/
  | withdrawing {r : Registry} : hasEnforcedAccounts v₁ = false →
      r = r₀ ∨ r = partialPolicy r₀ v₁ → SavePoint v₀ v₁ w r₀ w r
  /-- the old vault is back under whatever of the new policy was written -/
  | rolledBack {r : Registry} : hasEnforcedAccounts v₁ = false →
      r = r₀ ∨ r = partialPolicy r₀ v₁ ∨ r = partialPolicy r₀ v₀ → SavePoint v₀ v₁ w r₀ v₀ r
  /-- the old file could not be put back, the old policy was, or half of it -/
  | stranded {r : Registry} : hasEnforcedAccounts v₁ = false →
      r = partialPolicy r₀ v₀ ∨ r = publishedPolicy v₀ → SavePoint v₀ v₁ w r₀ w r

/-- The number of compensating steps that failed so far. -/
def failures (m : Machine) : Nat :=
  m.log.count .compensationFailed

/-- Where a `Save` that ended with `o` leaves the store. -/
def SaveEnd (v₀ v₁ w : Vault) (r₀ : Registry) (compensated : Prop) (v : Vault) (r : Registry) :
    Outcome Bytes (Except DWORD Unit) → Prop
  | .returned (.ok ()) => v = w ∧ r = publishedPolicy v₁
  | .returned (.error _) =>
      SavePoint v₀ v₁ w r₀ v r ∧ (compensated → v = v₀ ∧ (r = r₀ ∨ r = publishedPolicy v₀))
  | .threw _ => v = v₀ ∧ r = r₀
  | .stopped => SavePoint v₀ v₁ w r₀ v r

/-- The vault at a point of `Save` is the old one or the new one. -/
theorem SavePoint.old_or_new {v₀ v₁ w v : Vault} {r₀ r : Registry}
    (h : SavePoint v₀ v₁ w r₀ v r) : v = v₀ ∨ v = w := by
  cases h <;> simp

theorem SaveEnd.old_or_new {v₀ v₁ w v : Vault} {r₀ r : Registry} {compensated : Prop}
    {o : Outcome Bytes (Except DWORD Unit)} (h : SaveEnd v₀ v₁ w r₀ compensated v r o) :
    v = v₀ ∨ v = w := by
  match o, h with
  | .returned (.ok ()), h => exact .inr h.1
  | .returned (.error _), h => exact h.1.old_or_new
  | .threw _, h => exact .inl h.1
  | .stopped, h => exact SavePoint.old_or_new h

variable {P : Platform} {E : Environment}

/-- `SynchronizeEnforcedRegistry` only touches the registry, writes the list of
SIDs first, and has published the whole policy when it returns true. -/
theorem meets_synchronizeEnforcedRegistry (v : Vault) (m : Machine) :
    Meets (synchronizeEnforcedRegistry E v) m fun o n =>
      n.disk = m.disk ∧ n.log = m.log ∧ m.tick ≤ n.tick ∧
        match o with
        | .returned (.ok ()) => n.registry = publishedPolicy v
        | .returned (.error _) => n.registry = m.registry ∨ n.registry = partialPolicy m.registry v
        | .threw _ => False
        | .stopped => n.registry = m.registry ∨ n.registry = partialPolicy m.registry v ∨
            n.registry = publishedPolicy v := by
  unfold synchronizeEnforcedRegistry
  rw [meets_bind]
  refine meets_atomicStep ?_ (fun e => ?_) ?_ ?_
  · -- the key is open
    show Meets _ _ _
    rw [meets_bind]
    refine meets_atomicStep ?_ (fun e => ?_) ?_ ?_
    · -- the list of SIDs is written
      refine meets_atomicStep ?_ (fun e => ?_) ?_ ?_
      · exact ⟨rfl, rfl, by simp; omega, rfl⟩
      · exact ⟨rfl, rfl, by simp; omega, .inr rfl⟩
      · exact ⟨rfl, rfl, by simp; omega, .inr (.inl rfl)⟩
      · exact ⟨rfl, rfl, by simp; omega, .inr (.inr rfl)⟩
    · exact ⟨rfl, rfl, by simp; omega, .inl rfl⟩
    · exact ⟨rfl, rfl, by simp; omega, .inl rfl⟩
    · exact ⟨rfl, rfl, by simp; omega, .inr (.inl rfl)⟩
  · exact ⟨rfl, rfl, by simp, .inl rfl⟩
  · exact ⟨rfl, rfl, by simp, .inl rfl⟩
  · exact ⟨rfl, rfl, by simp, .inl rfl⟩

/-! ## The phases of `Save` -/

@[simp] theorem failures_next (m : Machine) : failures m.next = failures m := rfl

@[simp] theorem failures_setFile (f : VaultFile) (c : Option Bytes) (m : Machine) :
    failures (m.setFile f c) = failures m := rfl

@[simp] theorem failures_moved (f g : VaultFile) (c : Bytes) (m : Machine) :
    failures (moved f g c m) = failures m := rfl

@[simp] theorem failures_wreckFile (f : VaultFile) (c : Bytes) (w : Wreck) (m : Machine) :
    failures (m.wreckFile f c w) = failures m := by
  simp [failures]

@[simp] theorem failures_record_compensationFailed (m : Machine) :
    failures (m.record .compensationFailed) = failures m + 1 := by
  simp [failures]

theorem loadedVault_congr {d d' : Disk} (hp : d' .primary = d .primary)
    (hb : d' .backup = d .backup) : loadedVault P d' = loadedVault P d := by
  unfold loadedVault
  rw [vaultIn_congr hp, vaultIn_congr hb]

theorem loadedVault_of_primary {d : Disk} {v : Vault} (h : vaultIn P d .primary = some v) :
    loadedVault P d = some v := by
  unfold loadedVault
  rw [h]
  rfl

/-- The old vault can be put back: it is in the backup, and the primary holds no
other. -/
structure Kept (P : Platform) (v₀ : Vault) (d : Disk) : Prop where
  backup : vaultIn P d .backup = some v₀
  primary : vaultIn P d .primary = some v₀ ∨ vaultIn P d .primary = none

theorem Kept.loadedVault {v₀ : Vault} {d : Disk} (h : Kept P v₀ d) :
    loadedVault P d = some v₀ := by
  unfold LocalCredentialStore.loadedVault
  rcases h.primary with hp | hp
  · rw [hp]
    rfl
  · rw [hp, h.backup]
    rfl

/-- The vault that is loaded from a primary file with this content, when the backup
holds `v₀`. -/
def opensAs (P : Platform) (v₀ : Vault) (content : Bytes) : Vault :=
  (vaultOf P content).toOption.getD v₀

theorem loadedVault_opensAs {v₀ : Vault} {d : Disk} {c : Bytes} (hc : d .primary = some c)
    (hBackup : vaultIn P d .backup = some v₀) :
    LocalCredentialStore.loadedVault P d = some (opensAs P v₀ c) := by
  have hPrimary : vaultIn P d .primary = (vaultOf P c).toOption := by
    rw [vaultIn, hc]
    rfl
  rw [LocalCredentialStore.loadedVault, hPrimary, hBackup, opensAs]
  cases (vaultOf P c).toOption with
  | none => rfl
  | some v => rfl

/-- When reads succeed, a read returns the vault the file holds, if any. -/
theorem meets_readValidVault_of_readsSucceed (hReads : ReadsSucceed E) (file : VaultFile)
    (m : Machine) :
    Meets (readValidVault P E file) m fun o n =>
      n.disk = m.disk ∧ n.registry = m.registry ∧ failures n = failures m ∧
        ∃ r, o = .returned r ∧ r.toOption = vaultIn P m.disk file := by
  refine meets_readValidVault (fun hMissing => ?_) (fun c v hc _ hv => ?_) (fun c e hc hRef => ?_)
  · exact ⟨rfl, rfl, rfl, _, rfl, by simp [vaultIn, hMissing, Except.toOption]⟩
  · exact ⟨rfl, rfl, rfl, _, rfl, (vaultIn_eq_some.mpr ⟨c, hc, hv⟩).symm⟩
  · refine ⟨rfl, rfl, rfl, _, rfl, ?_⟩
    rcases hRef with hFault | ⟨e', he'⟩
    · rw [hReads] at hFault
      simp at hFault
    · simp [vaultIn, hc, he', Except.toOption]

/-- What `Save` knows after it looked for the previous vault. -/
def BackupKept (P : Platform) (v₀ : Vault) (m : Machine)
    (o : Outcome Bytes (Except DWORD (Option Vault))) (n : Machine) : Prop :=
  n.registry = m.registry ∧ failures n = failures m ∧ n.disk .temporary = m.disk .temporary ∧
    loadedVault P n.disk = some v₀ ∧
    match o with
    | .returned (.ok previous) => previous = some v₀ ∧ Kept P v₀ n.disk
    | .threw _ => False
    | _ => True

/-- Keeping the backup never changes which vault is in force, and when it came
to an end the old vault can be put back. -/
theorem meets_keepBackup (hReads : ReadsSucceed E) {v₀ : Vault} {m : Machine}
    (h₀ : loadedVault P m.disk = some v₀) :
    Meets (keepBackup P E) m (BackupKept P v₀ m) := by
  unfold keepBackup
  rw [meets_bind]
  refine (meets_readValidVault_of_readsSucceed hReads .primary m).mono ?_
  rintro _ n ⟨hDisk, hReg, hFail, r, rfl, hr⟩
  cases r with
  | ok previous =>
      have hPrimary : vaultIn P m.disk .primary = some previous := hr.symm
      obtain rfl : previous = v₀ := by
        rw [loadedVault_of_primary hPrimary] at h₀
        exact Option.some.inj h₀
      -- the primary stays as it is, whatever becomes of the copy
      have hStill : ∀ k : Machine, k.disk .primary = n.disk .primary →
          vaultIn P k.disk .primary = some previous := fun k hk => by
        rw [vaultIn_congr (hk.trans (congrFun hDisk _))]
        exact hPrimary
      dsimp only
      rw [meets_bind]
      refine meets_copyFile (fun hMissing => ?_) (fun c hc => ?_) (fun c e w hc => ?_)
        (fun c w hc => ?_)
      · exact ⟨hReg, hFail, by simp [hDisk], loadedVault_of_primary (hStill _ rfl), trivial⟩
      · have hk := hStill (n.next.setFile .backup (some c)) (by simp)
        refine ⟨hReg, hFail, by simp [hDisk], loadedVault_of_primary hk, rfl, ?_, .inl hk⟩
        -- the backup is now a copy of the primary
        rw [← hk]
        unfold vaultIn
        simp [hc]
      · have hk := hStill (n.next.wreckFile .backup c w) (wreckFile_disk_of_ne (by simp) ..)
        have hTemp : (n.next.wreckFile .backup c w).disk .temporary = m.disk .temporary :=
          (wreckFile_disk_of_ne (by simp) ..).trans (congrFun hDisk _)
        exact ⟨(wreckFile_registry ..).trans hReg, (failures_wreckFile ..).trans hFail, hTemp,
          loadedVault_of_primary hk, trivial⟩
      · have hk := hStill (n.next.wreckFile .backup c w) (wreckFile_disk_of_ne (by simp) ..)
        have hTemp : (n.next.wreckFile .backup c w).disk .temporary = m.disk .temporary :=
          (wreckFile_disk_of_ne (by simp) ..).trans (congrFun hDisk _)
        exact ⟨(wreckFile_registry ..).trans hReg, (failures_wreckFile ..).trans hFail, hTemp,
          loadedVault_of_primary hk, trivial⟩
  | error _ =>
      have hPrimary : vaultIn P m.disk .primary = none := hr.symm
      have hBackup : vaultIn P m.disk .backup = some v₀ := by
        simpa [loadedVault, hPrimary] using h₀
      dsimp only
      rw [meets_bind]
      refine (meets_readValidVault_of_readsSucceed hReads .backup n).mono ?_
      rintro _ k ⟨hDisk', hReg', hFail', r, rfl, hr⟩
      rw [hDisk, hBackup] at hr
      cases r with
      | error _ => cases hr
      | ok previous =>
          obtain rfl : previous = v₀ := Option.some.inj hr
          have hk : k.disk = m.disk := hDisk'.trans hDisk
          dsimp only
          rw [meets_pure]
          refine ⟨hReg'.trans hReg, hFail'.trans hFail, by rw [hk], by rw [hk]; exact h₀, rfl, ?_⟩
          rw [hk]
          exact ⟨hBackup, .inr hPrimary⟩

/-- Putting the previous policy back restores it, restores half of it, or fails
without effect; a failure is on record. -/
theorem meets_republish (v₀ : Vault) (m : Machine) :
    Meets (republish E (some v₀)) m fun o n =>
      n.disk = m.disk ∧
        match o with
        | .returned () =>
            (n.registry = publishedPolicy v₀ ∧ failures n = failures m) ∨
              ((n.registry = m.registry ∨ n.registry = partialPolicy m.registry v₀) ∧
                failures n = failures m + 1)
        | .threw _ => False
        | .stopped => n.registry = m.registry ∨ n.registry = partialPolicy m.registry v₀ ∨
            n.registry = publishedPolicy v₀ := by
  unfold republish
  show Meets (synchronizeEnforcedRegistry E v₀ >>= _) m _
  rw [meets_bind]
  refine (meets_synchronizeEnforcedRegistry v₀ m).mono ?_
  rintro (r | e | _) n ⟨hDisk, hLog, _, h⟩
  · have hFail : failures n = failures m := congrArg (List.count _) hLog
    cases r with
    | ok _ => exact ⟨hDisk, .inl ⟨h, hFail⟩⟩
    | error _ => exact ⟨hDisk, .inr ⟨h, by simp [hFail]⟩⟩
  · exact h.elim
  · exact ⟨hDisk, h⟩

/-- Putting the previous file back restores its vault or leaves the primary as
it is; a failure is on record. -/
theorem meets_rollBack {v₀ : Vault} {m : Machine} (hb : vaultIn P m.disk .backup = some v₀) :
    Meets (rollBack E (some v₀)) m fun o n =>
      n.registry = m.registry ∧ n.disk .backup = m.disk .backup ∧
        match o with
        | .returned () =>
            (vaultIn P n.disk .primary = some v₀ ∧ failures n = failures m) ∨
              (n.disk .primary = m.disk .primary ∧ failures n = failures m + 1)
        | .threw _ => False
        | .stopped =>
            vaultIn P n.disk .primary = some v₀ ∨ n.disk .primary = m.disk .primary := by
  obtain ⟨c, hc, hv⟩ := vaultIn_eq_some.mp hb
  unfold rollBack restorePreviousFile
  simp only [Option.isNone_some, Bool.false_eq_true, ↓reduceIte, bind_assoc, meets_bind]
  refine meets_copyFile (fun hMissing => ?_) (fun b hCopy => ?_) (fun b e w hCopy => ?_)
    (fun b w hCopy => ?_)
  · rw [hc] at hMissing
    cases hMissing
  · rw [hc] at hCopy
    cases hCopy
    -- the copy is moved into place as a whole or not at all
    have hRollback : (m.next.setFile .rollback (some c)).disk .rollback = some c := by simp
    have hRestored : ∀ k : Machine,
        vaultIn P (moved .rollback .primary c k).disk .primary = some v₀ := fun k =>
      vaultIn_eq_some.mpr ⟨c, moved_disk_target (by decide) c k, hv⟩
    dsimp only
    rw [meets_bind]
    refine meets_moveFile (fun hMissing => ?_) (fun b hMove => ?_) (fun e => ?_) ?_
      (fun b hMove => ?_)
    · rw [hRollback] at hMissing
      cases hMissing
    · rw [hRollback] at hMove
      cases hMove
      exact ⟨rfl, by simp [moved], .inl ⟨hRestored _, by simp⟩⟩
    · dsimp only
      rw [meets_bind]
      refine meets_deleteFile ?_ ?_ ?_ ?_
      · exact ⟨rfl, by simp, .inr ⟨by simp, by simp⟩⟩
      · exact ⟨rfl, by simp, .inr ⟨by simp, by simp⟩⟩
      · exact ⟨rfl, by simp, .inr (by simp)⟩
      · exact ⟨rfl, by simp, .inr (by simp)⟩
    · exact ⟨rfl, by simp, .inr (by simp)⟩
    · rw [hRollback] at hMove
      cases hMove
      exact ⟨rfl, by simp [moved], .inl (hRestored _)⟩
  · refine ⟨by simp, ?_, .inr ⟨?_, by simp⟩⟩
    · exact wreckFile_disk_of_ne (by simp) ..
    · exact wreckFile_disk_of_ne (by simp) ..
  · refine ⟨by simp, ?_, .inr ?_⟩
    · exact wreckFile_disk_of_ne (by simp) ..
    · exact wreckFile_disk_of_ne (by simp) ..

/-! ## The whole of `Save` -/

/-- A `Save` of `v₁` that started in `m` with the vault `v₀` left the store where it
should with the outcome `o` in `n`. -/
def Ended (P : Platform) (v₀ v₁ w : Vault) (m : Machine) (o : Outcome Bytes (Except DWORD Unit))
    (n : Machine) : Prop :=
  ∃ v, loadedVault P n.disk = some v ∧
    SaveEnd v₀ v₁ w m.registry (failures n = failures m) v n.registry o

/-- Deleting the temporary file on the way out does not change what is visible. -/
theorem meets_deleteTemporary {v₀ v₁ w : Vault} {m k : Machine} {e : DWORD}
    (h : Ended P v₀ v₁ w m (.returned (.error e)) k) :
    Meets (do E.deleteFile .temporary; return .error e) k (Ended P v₀ v₁ w m) := by
  obtain ⟨v, hv, hPoint, hComp⟩ := h
  have hLoaded : loadedVault P (k.next.setFile .temporary none).disk = some v := by
    rw [← hv]
    exact loadedVault_congr (by simp) (by simp)
  rw [meets_bind]
  exact meets_deleteFile ⟨v, hLoaded, hPoint, hComp⟩ ⟨v, hv, hPoint, hComp⟩
    ⟨v, hv, hPoint⟩ ⟨v, hLoaded, hPoint⟩

/-- The failure of a step after an enforcing policy was announced, in whole or in
part: the old policy is published again over the old vault. -/
theorem meets_revoke {v₀ v₁ w : Vault} {m k : Machine} {e : DWORD}
    (hEnforced : hasEnforcedAccounts v₁ = true) (hLoaded : loadedVault P k.disk = some v₀)
    (hReg : k.registry = m.registry ∨ k.registry = partialPolicy m.registry v₁ ∨
      k.registry = publishedPolicy v₁) (hFail : failures k = failures m) :
    Meets (do republish E (some v₀); E.deleteFile .temporary; return .error e) k
      (Ended P v₀ v₁ w m) := by
  have hHere : SavePoint v₀ v₁ w m.registry v₀ k.registry := by
    rcases hReg with hReg | hReg | hReg <;> rw [hReg]
    · exact .untouched
    · exact .announcing hEnforced
    · exact .announced hEnforced
  rw [meets_bind]
  refine (meets_republish v₀ k).mono ?_
  rintro (_ | e' | _) n ⟨hDisk, h⟩
  · refine meets_deleteTemporary ⟨v₀, by rw [hDisk]; exact hLoaded, ?_⟩
    rcases h with ⟨hPub, _⟩ | ⟨hOld | hHalf, hLost⟩
    · rw [hPub]
      exact ⟨.restored, fun _ => ⟨rfl, .inr rfl⟩⟩
    · rw [hOld]
      exact ⟨hHere, fun hComp => by omega⟩
    · rw [hHalf]
      exact ⟨.revoking hEnforced hReg, fun hComp => by omega⟩
  · exact h.elim
  · refine ⟨v₀, by rw [hDisk]; exact hLoaded, ?_⟩
    rcases h with hOld | hHalf | hPub
    · rw [hOld]
      exact hHere
    · rw [hHalf]
      exact .revoking hEnforced hReg
    · rw [hPub]
      exact .restored

/-- The failure to publish a policy that enforces nobody: file and policy are put
back. -/
theorem meets_undo {v₀ v₁ w : Vault} {m k : Machine} {e : DWORD}
    (hNone : hasEnforcedAccounts v₁ = false) (hLoaded : loadedVault P k.disk = some w)
    (hBackup : vaultIn P k.disk .backup = some v₀)
    (hReg : k.registry = m.registry ∨ k.registry = partialPolicy m.registry v₁)
    (hFail : failures k = failures m) :
    Meets (do rollBack E (some v₀); republish E (some v₀); return .error e) k
      (Ended P v₀ v₁ w m) := by
  have hRolled : ∀ r, r = m.registry ∨ r = partialPolicy m.registry v₁ →
      SavePoint v₀ v₁ w m.registry v₀ r := fun r hr =>
    .rolledBack hNone (hr.imp_right .inl)
  have hHalf : partialPolicy k.registry v₀ = partialPolicy m.registry v₀ := by
    rcases hReg with hReg | hReg <;> rw [hReg]
    rfl
  rw [meets_bind]
  refine (meets_rollBack hBackup).mono ?_
  rintro (_ | e' | _) n ⟨hReg', hBackup', h⟩
  · dsimp only
    rw [meets_bind]
    refine (meets_republish v₀ n).mono ?_
    rw [hReg', hHalf]
    rcases h with ⟨hRestored, hFail'⟩ | ⟨hKept, hLost⟩
    · -- the old file is back
      have hLoaded : loadedVault P n.disk = some v₀ := loadedVault_of_primary hRestored
      rintro (_ | e' | _) l ⟨hDisk, h⟩
      · dsimp only
        rw [meets_pure]
        refine ⟨v₀, by rw [hDisk]; exact hLoaded, ?_⟩
        rcases h with ⟨hPub, _⟩ | ⟨hOld | hPart, hLost⟩
        · rw [hPub]
          exact ⟨.restored, fun _ => ⟨rfl, .inr rfl⟩⟩
        · rw [hOld]
          exact ⟨hRolled _ hReg, fun hComp => by omega⟩
        · rw [hPart]
          exact ⟨.rolledBack hNone (.inr (.inr rfl)), fun hComp => by omega⟩
      · exact h.elim
      · refine ⟨v₀, by rw [hDisk]; exact hLoaded, ?_⟩
        rcases h with hOld | hPart | hPub
        · rw [hOld]
          exact hRolled _ hReg
        · rw [hPart]
          exact .rolledBack hNone (.inr (.inr rfl))
        · rw [hPub]
          exact .restored
    · -- the new file stays, and the failure is on record
      have hLoaded' : loadedVault P n.disk = some w := (loadedVault_congr hKept hBackup').trans hLoaded
      rintro (_ | e' | _) l ⟨hDisk, h⟩
      · dsimp only
        rw [meets_pure]
        refine ⟨w, by rw [hDisk]; exact hLoaded', ?_⟩
        rcases h with ⟨hPub, hSame⟩ | ⟨hOld | hPart, hMore⟩
        · rw [hPub]
          exact ⟨.stranded hNone (.inr rfl), fun hComp => by omega⟩
        · rw [hOld]
          exact ⟨.withdrawing hNone hReg, fun hComp => by omega⟩
        · rw [hPart]
          exact ⟨.stranded hNone (.inl rfl), fun hComp => by omega⟩
      · exact h.elim
      · refine ⟨w, by rw [hDisk]; exact hLoaded', ?_⟩
        rcases h with hOld | hPart | hPub
        · rw [hOld]
          exact .withdrawing hNone hReg
        · rw [hPart]
          exact .stranded hNone (.inl rfl)
        · rw [hPub]
          exact .stranded hNone (.inr rfl)
  · exact h.elim
  · rcases h with hRestored | hKept
    · refine ⟨v₀, loadedVault_of_primary hRestored, ?_⟩
      rw [hReg']
      exact hRolled _ hReg
    · refine ⟨w, (loadedVault_congr hKept hBackup').trans hLoaded, ?_⟩
      rw [hReg']
      exact .withdrawing hNone hReg

/-- From a prepared state the end of `Save` comes out as it should. -/
theorem meets_replacePrimary {v₀ v₁ : Vault} {m k : Machine} {c : Bytes} (hKept : Kept P v₀ k.disk)
    (hc : k.disk .temporary = some c) (hFail : failures k = failures m)
    (hReg : k.registry = if hasEnforcedAccounts v₁ then publishedPolicy v₁ else m.registry) :
    Meets (replacePrimary E v₁ (some v₀)) k (Ended P v₀ v₁ (opensAs P v₀ c) m) := by
  have hBackup : vaultIn P (moved .temporary .primary c k.next).disk .backup = some v₀ :=
    (vaultIn_congr (moved_disk_other (by decide) (by decide) c _)).trans hKept.backup
  have hMoved : loadedVault P (moved .temporary .primary c k.next).disk = some (opensAs P v₀ c) :=
    loadedVault_opensAs (moved_disk_target (by decide) c _) hBackup
  have hContent : ∀ b, k.disk .temporary = some b → b = c := fun b hb =>
    Option.some.inj (hb.symm.trans hc)
  unfold replacePrimary
  rw [meets_bind]
  cases hEnforced : hasEnforcedAccounts v₁ with
  | true =>
      simp only [hEnforced, ↓reduceIte] at hReg ⊢
      refine meets_moveFile (fun hMissing => ?_) (fun b hb => ?_) (fun e => ?_) ?_ (fun b hb => ?_)
      · rw [hc] at hMissing
        cases hMissing
      · obtain rfl := hContent b hb
        exact ⟨_, hMoved, rfl, hReg⟩
      · exact meets_revoke hEnforced hKept.loadedVault (.inr (.inr hReg)) hFail
      · refine ⟨v₀, hKept.loadedVault, ?_⟩
        rw [next_registry, hReg]
        exact .announced hEnforced
      · obtain rfl := hContent b hb
        refine ⟨_, hMoved, ?_⟩
        rw [moved_registry, next_registry, hReg]
        exact .replaced
  | false =>
      simp only [hEnforced, Bool.false_eq_true, ↓reduceIte] at hReg ⊢
      refine meets_moveFile (fun hMissing => ?_) (fun b hb => ?_) (fun e => ?_) ?_ (fun b hb => ?_)
      · rw [hc] at hMissing
        cases hMissing
      · obtain rfl := hContent b hb
        dsimp only
        rw [meets_bind]
        refine (meets_synchronizeEnforcedRegistry v₁ _).mono ?_
        rintro (r | e | _) n ⟨hDisk, hLog, _, h⟩
        · have hLoaded : loadedVault P n.disk = some (opensAs P v₀ b) := by rw [hDisk]; exact hMoved
          cases r with
          | ok _ => exact ⟨_, hLoaded, rfl, h⟩
          | error e =>
              have hFail' : failures n = failures m :=
                (congrArg (List.count _) hLog).trans hFail
              refine meets_undo hEnforced hLoaded (by rw [hDisk]; exact hBackup) ?_ hFail'
              rw [← hReg]
              exact h
        · exact h.elim
        · refine ⟨_, by rw [hDisk]; exact hMoved, ?_⟩
          rcases h with hOld | hHalf | hPub
          · rw [hOld, moved_registry, next_registry, hReg]
            exact .withdrawing hEnforced (.inl rfl)
          · rw [hHalf, moved_registry, next_registry, hReg]
            exact .withdrawing hEnforced (.inr rfl)
          · rw [hPub]
            exact .replaced
      · -- nothing was published, and nothing has to be put back
        refine meets_deleteTemporary ⟨v₀, hKept.loadedVault, ?_⟩
        rw [next_registry, hReg]
        exact ⟨.untouched, fun _ => ⟨rfl, .inl rfl⟩⟩
      · refine ⟨v₀, hKept.loadedVault, ?_⟩
        rw [next_registry, hReg]
        exact .untouched
      · obtain rfl := hContent b hb
        refine ⟨_, hMoved, ?_⟩
        rw [moved_registry, next_registry, hReg]
        exact .withdrawing hEnforced (.inl rfl)

theorem meets_publishAndReplace {v₀ v₁ : Vault} {m k : Machine} {c : Bytes}
    (hKept : Kept P v₀ k.disk) (hc : k.disk .temporary = some c) (hFail : failures k = failures m)
    (hReg : k.registry = m.registry) :
    Meets (publishAndReplace E v₁ (some v₀)) k (Ended P v₀ v₁ (opensAs P v₀ c) m) := by
  unfold publishAndReplace
  cases hEnforced : hasEnforcedAccounts v₁ with
  | false =>
      simp only [Bool.false_eq_true, ↓reduceIte]
      exact meets_replacePrimary hKept hc hFail (by simp [hEnforced, hReg])
  | true =>
      simp only [↓reduceIte]
      rw [meets_bind]
      refine (meets_synchronizeEnforcedRegistry v₁ k).mono ?_
      rw [hReg]
      rintro (r | e | _) n ⟨hDisk, hLog, _, h⟩
      · have hFail' : failures n = failures m := (congrArg (List.count _) hLog).trans hFail
        cases r with
        | ok _ =>
            refine meets_replacePrimary ?_ (by rw [hDisk]; exact hc) hFail' (by simp [hEnforced, h])
            rw [hDisk]
            exact hKept
        | error e =>
            refine meets_revoke hEnforced ?_ (h.imp_right .inl) hFail'
            rw [hDisk]
            exact hKept.loadedVault
      · exact h.elim
      · refine ⟨v₀, by rw [hDisk]; exact hKept.loadedVault, ?_⟩
        rcases h with hOld | hHalf | hPub
        · rw [hOld]
          exact .untouched
        · rw [hHalf]
          exact .announcing hEnforced
        · rw [hPub]
          exact .announced hEnforced

/-- The vault that is loaded once a `Save` of `v₁` that starts at `tick` has put its
file in place over a backup of `v₀`. -/
def replacement (P : Platform) (v₀ v₁ : Vault) (tick : Nat) : Vault :=
  match P.dump (vaultToJson P v₁) with
  | .ok plaintext => opensAs P v₀ (P.cryptProtectData (tick + 1) plaintext)
  | .error _ => v₁

/-- Whichever steps fail and wherever the process stops, a `Save` leaves the
store at one of its points, and at the promised one when it returned. -/
theorem save_ends (hReads : ReadsSucceed E) {v₀ v₁ : Vault} {m : Machine}
    (h₀ : loadedVault P m.disk = some v₀) :
    Meets (save P E v₁) m (Ended P v₀ v₁ (replacement P v₀ v₁ m.tick) m) := by
  unfold replacement
  generalize hw : (match P.dump (vaultToJson P v₁) with
    | .ok plaintext => opensAs P v₀ (P.cryptProtectData (m.tick + 1) plaintext)
    | .error _ => v₁) = w
  -- before anything is published an end leaves everything as it was
  have hEarly : ∀ o k, (o = .stopped ∨ (∃ e, o = .threw e) ∨ ∃ e, o = .returned (.error e)) →
      loadedVault P k.disk = some v₀ → k.registry = m.registry → Ended P v₀ v₁ w m o k := by
    intro o k ho hk hr
    refine ⟨v₀, hk, ?_⟩
    rw [hr]
    rcases ho with rfl | ⟨e, rfl⟩ | ⟨e, rfl⟩
    · exact .untouched
    · exact ⟨rfl, rfl⟩
    · exact ⟨.untouched, fun _ => ⟨rfl, .inl rfl⟩⟩
  have hStopped : ∀ k, loadedVault P k.disk = some v₀ → k.registry = m.registry →
      Ended P v₀ v₁ w m .stopped k := fun k => hEarly _ k (.inl rfl)
  have hError : ∀ e k, loadedVault P k.disk = some v₀ → k.registry = m.registry →
      Ended P v₀ v₁ w m (.returned (.error e)) k := fun e k => hEarly _ k (.inr (.inr ⟨e, rfl⟩))
  unfold save
  split_ifs with hInvalid
  · exact hError _ m h₀ rfl
  rw [meets_bind]
  refine meets_atomicStep ?_ (fun e => hError e _ h₀ rfl) (hStopped _ h₀ rfl) (hStopped _ h₀ rfl)
  dsimp only [id]
  cases hDump : P.dump (vaultToJson P v₁) with
  | error e => exact hEarly _ _ (.inr (.inl ⟨e, rfl⟩)) h₀ rfl
  | ok plaintext =>
      rw [Program.ofExcept_ok, pure_bind, meets_bind]
      set content := P.cryptProtectData m.next.tick plaintext with hContent
      have hOther : ∀ k : Machine, (∀ f, f ≠ .temporary → k.disk f = m.disk f) →
          loadedVault P k.disk = some v₀ := fun k hk => by
        rw [loadedVault_congr (hk _ (by decide)) (hk _ (by decide))]
        exact h₀
      have hWreck : ∀ w, loadedVault P (m.next.next.wreckFile .temporary content w).disk = some v₀ :=
        fun w => hOther _ fun f hf => wreckFile_disk_of_ne hf ..
      refine meets_writeProtectedFile ?_ (fun e w => ?_) (fun w => ?_)
      · dsimp only
        rw [meets_bind]
        refine (meets_keepBackup hReads (hOther _ fun f hf => by simp [Function.update_of_ne hf])).mono ?_
        rintro (r | e | _) n ⟨hReg, hFail, hTemp, hLoaded, h⟩
        · cases r with
          | error e => exact meets_deleteTemporary (hError e n hLoaded hReg)
          | ok previous =>
              obtain ⟨rfl, hKept⟩ := h
              have hContent' : n.disk .temporary = some content := by
                rw [hTemp, setFile_disk, Function.update_self]
              have hEnds : Meets (publishAndReplace E v₁ (some v₀)) n
                  (Ended P v₀ v₁ (opensAs P v₀ content) m) :=
                meets_publishAndReplace hKept hContent' hFail hReg
              rw [hDump] at hw
              rw [← hw]
              exact hEnds
        · exact h.elim
        · exact hStopped n hLoaded hReg
      · exact hError e _ (hWreck w) (wreckFile_registry ..)
      · exact hStopped _ (hWreck w) (wreckFile_registry ..)

end LocalCredentialStore
end WindowsFidoLogon
