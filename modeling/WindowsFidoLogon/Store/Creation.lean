import WindowsFidoLogon.Library.History
import WindowsFidoLogon.Store.Progress
import WindowsFidoLogon.Store.SaveAtomic

/-!
# When a new vault is made

`LoadOrCreate` makes a new vault, with a new machine id, when `Load` reports that a
file was not found.  `Load` reports the error of the primary file alone, so a missing
primary file hides a backup that is there and cannot be used.
-/

namespace WindowsFidoLogon
namespace LocalCredentialStore

open Program Environment

variable {P : Platform} {E : Environment}

/-! ## The result of a load -/

/-- What a read of a vault file comes to. -/
def readResult (P : Platform) (E : Environment) (file : VaultFile) (m : Machine) :
    Except DWORD Vault :=
  match m.disk file with
  | none => .error ERROR_FILE_NOT_FOUND
  | some content =>
      match E.readFault file m.tick with
      | some e => .error e.val
      | none => vaultOf P content

theorem readValidVault_apply (file : VaultFile) (m : Machine) :
    readValidVault P E file m = (.returned (readResult P E file m), m.next) := by
  unfold readValidVault readResult
  cases m.disk file with
  | none => rfl
  | some content =>
      dsimp only
      cases E.readFault file m.tick <;> rfl

/-- What `Load` comes to: the error of the primary file hides that of the backup. -/
def loadResult (P : Platform) (E : Environment) (m : Machine) : Except DWORD Vault :=
  match readResult P E .primary m with
  | .ok vault => .ok vault
  | .error primaryError =>
      match readResult P E .backup m.next with
      | .ok vault => .ok vault
      | .error backupError =>
          .error (if primaryError ≠ ERROR_SUCCESS then primaryError else backupError)

/-- The number of new vaults made so far. -/
def creations (m : Machine) : Nat := m.log.count .created

@[simp] theorem creations_next (m : Machine) : creations m.next = creations m := rfl

@[simp] theorem creations_loaded (file : VaultFile) (v : Vault) (m : Machine) :
    creations (m.record (.loaded file v)) = creations m :=
  List.count_cons_of_ne LogEntry.noConfusion

@[simp] theorem creations_loadFailed (m : Machine) :
    creations (m.record .loadFailed) = creations m :=
  List.count_cons_of_ne LogEntry.noConfusion

@[simp] theorem creations_created (m : Machine) :
    creations (m.record .created) = creations m + 1 :=
  List.count_cons_self

/-- A load that succeeds changes nothing. -/
theorem load_of_ok {m : Machine} {v : Vault} (h : loadResult P E m = .ok v) :
    ∃ n, load P E m = (.returned (.ok v), n) ∧ n.disk = m.disk ∧ n.registry = m.registry ∧
      creations n = creations m := by
  unfold loadResult at h
  unfold load
  rw [bind_returned (readValidVault_apply .primary m)]
  cases hPrimary : readResult P E .primary m with
  | ok w =>
      rw [hPrimary] at h
      cases h
      exact ⟨_, rfl, rfl, rfl, by simp⟩
  | error primaryError =>
      rw [hPrimary] at h
      dsimp only at h ⊢
      rw [bind_returned (readValidVault_apply .backup m.next)]
      cases hBackup : readResult P E .backup m.next with
      | ok w =>
          rw [hBackup] at h
          cases h
          exact ⟨_, rfl, rfl, rfl, by simp⟩
      | error backupError =>
          rw [hBackup] at h
          cases h

/-- A load that fails has read both files. -/
theorem load_of_error {m : Machine} {e : DWORD} (h : loadResult P E m = .error e) :
    load P E m = (.returned (.error e), m.next.next.record .loadFailed) := by
  unfold loadResult at h
  unfold load
  rw [bind_returned (readValidVault_apply .primary m)]
  cases hPrimary : readResult P E .primary m with
  | ok w =>
      rw [hPrimary] at h
      cases h
  | error primaryError =>
      rw [hPrimary] at h
      dsimp only at h ⊢
      rw [bind_returned (readValidVault_apply .backup m.next)]
      cases hBackup : readResult P E .backup m.next with
      | ok w =>
          rw [hBackup] at h
          cases h
      | error backupError =>
          rw [hBackup] at h
          cases h
          rfl

/-- A file that was read holds the vault. -/
theorem vaultIn_of_readResult {file : VaultFile} {m : Machine} {v : Vault}
    (h : readResult P E file m = .ok v) : vaultIn P m.disk file = some v := by
  unfold readResult at h
  split at h
  · cases h
  · rename_i content hContent
    split at h
    · cases h
    · exact vaultIn_eq_some.mpr ⟨content, hContent, h⟩

/-- A vault that was loaded is the one in a file. -/
theorem stored_of_loadResult {m : Machine} {v : Vault} (h : loadResult P E m = .ok v) :
    vaultIn P m.disk .primary = some v ∨ vaultIn P m.disk .backup = some v := by
  unfold loadResult at h
  split at h
  · rename_i w hPrimary
    cases h
    exact .inl (vaultIn_of_readResult hPrimary)
  · split at h
    · rename_i w hBackup
      cases h
      exact .inr (vaultIn_of_readResult (m := m.next) hBackup)
    · cases h

/-! ## One identity -/

/-- No vault file exists. -/
def NoFiles (m : Machine) : Prop := m.disk .primary = none ∧ m.disk .backup = none

/-- A call of `LoadOrCreate` respects the vault that is there: unless there is no file,
it makes no new vault, changes nothing, and returns a stored vault or false. -/
def OneIdentity (P : Platform) (m : Machine) (o : Outcome Bytes (Except DWORD Vault))
    (n : Machine) : Prop :=
  NoFiles m ∨ n.disk = m.disk ∧ n.registry = m.registry ∧ creations n = creations m ∧
    ((∃ e, o = .returned (.error e)) ∨ ∃ v, o = .returned (.ok v) ∧
      (vaultIn P m.disk .primary = some v ∨ vaultIn P m.disk .backup = some v))

/-- The error of a file that does not exist. -/
def NotFound (e : DWORD) : Prop := e = ERROR_FILE_NOT_FOUND ∨ e = ERROR_PATH_NOT_FOUND

/-- Whatever is there is recognized: if both files are refused, then there is none, the
error that counts is another one than that of a missing file, or there are no random
bytes for a new machine id. -/
def Recognized (P : Platform) (E : Environment) (m : Machine) : Prop :=
  ∀ primaryError backupError, readResult P E .primary m = .error primaryError →
    readResult P E .backup m.next = .error backupError →
    NoFiles m ∨
      ¬ NotFound (if primaryError ≠ ERROR_SUCCESS then primaryError else backupError) ∨
      E.random 16 (m.tick + 2) = none

theorem recognized_of_ok {m : Machine} {v : Vault} (h : loadResult P E m = .ok v) :
    Recognized P E m := by
  intro primaryError backupError hPrimary hBackup
  rw [loadResult, hPrimary] at h
  dsimp only at h
  rw [hBackup] at h
  cases h

theorem recognized_of_error {m : Machine} {e : DWORD} (h : loadResult P E m = .error e) :
    Recognized P E m ↔ NoFiles m ∨ ¬ NotFound e ∨ E.random 16 (m.tick + 2) = none := by
  unfold loadResult at h
  split at h
  · cases h
  rename_i primaryError hPrimary
  split at h
  · cases h
  rename_i backupError hBackup
  cases h
  constructor
  · exact fun hRecognized => hRecognized _ _ hPrimary hBackup
  · intro hCases primaryError' backupError' hPrimary' hBackup'
    obtain rfl := Except.error.inj (hPrimary.symm.trans hPrimary')
    obtain rfl := Except.error.inj (hBackup.symm.trans hBackup')
    exact hCases

/-- A new machine id is not empty. -/
theorem hexId_ne (bytes : { data : Bytes // data.length = 16 }) :
    (bytes.val.flatMap hexByte).isEmpty = false := by
  obtain ⟨_ | ⟨first, rest⟩, hLength⟩ := bytes
  · cases hLength
  · rfl

theorem generateHexId_of_none {m : Machine} (h : E.random 16 m.tick = none) :
    generateHexId E m = (.returned [], m.next) := by
  have hAsk : ask (E.random 16) m = (.returned none, m.next) := by rw [← h]; rfl
  exact bind_returned hAsk

theorem generateHexId_of_some {m : Machine} {bytes : { data : Bytes // data.length = 16 }}
    (h : E.random 16 m.tick = some bytes) :
    generateHexId E m = (.returned (bytes.val.flatMap hexByte), m.next) := by
  have hAsk : ask (E.random 16) m = (.returned (some bytes), m.next) := by rw [← h]; rfl
  exact bind_returned hAsk

theorem creations_le {m n : Machine} (h : Later m n) : creations m ≤ creations n :=
  h.log_suffix.sublist.count_le _

/-- The end of `LoadOrCreate`. -/
theorem moves_saveNew (v : Vault) : Moves Later (do
    match ← save P E v with
    | .ok () => return (.ok v : Except DWORD Vault)
    | .error e => return .error e) :=
  .bind (steps_later.save v) fun r => by cases r <;> exact .pure _

/-- `LoadOrCreate` respects the vault that is there exactly when it recognizes it. -/
theorem loadOrCreate_oneIdentity_iff (m : Machine) :
    OneIdentity P m (loadOrCreate P E m).1 (loadOrCreate P E m).2 ↔ Recognized P E m := by
  cases hLoad : loadResult P E m with
  | ok v =>
      refine iff_of_true ?_ (recognized_of_ok hLoad)
      obtain ⟨n, hRun, hDisk, hRegistry, hCreations⟩ := load_of_ok hLoad
      unfold loadOrCreate
      rw [bind_returned hRun]
      exact .inr ⟨hDisk, hRegistry, hCreations, .inr ⟨v, rfl, stored_of_loadResult hLoad⟩⟩
  | error e =>
      rw [recognized_of_error hLoad]
      have hFailed : creations (m.next.next.record .loadFailed) = creations m := by simp
      unfold loadOrCreate
      rw [bind_returned (load_of_error hLoad)]
      dsimp only
      by_cases hNotFound : NotFound e
      · have hGoesOn : ¬ (e ≠ ERROR_FILE_NOT_FOUND ∧ e ≠ ERROR_PATH_NOT_FOUND) := by
          rintro ⟨hFile, hPath⟩
          exact hNotFound.elim hFile hPath
        rw [if_neg hGoesOn]
        cases hRandom : E.random 16 (m.tick + 2) with
        | none =>
            rw [bind_returned (generateHexId_of_none hRandom)]
            exact iff_of_true (.inr ⟨rfl, rfl, hFailed, .inl ⟨ERROR_GEN_FAILURE, rfl⟩⟩)
              (.inr (.inr rfl))
        | some bytes =>
            rw [bind_returned (generateHexId_of_some hRandom), hexId_ne, if_neg Bool.false_ne_true]
            -- a new vault is made, whatever becomes of its `Save`
            constructor
            · rintro (hNone | ⟨-, -, hCreations, -⟩)
              · exact .inl hNone
              · rw [bind_returned (record_apply _ _)] at hCreations
                have hLater := creations_le (moves_saveNew (P := P) (E := E)
                  { machineId := bytes.val.flatMap hexByte
                    rpId := rpIdOf (bytes.val.flatMap hexByte) }
                  ((m.next.next.record .loadFailed).next.record .created))
                rw [creations_created, creations_next, hFailed] at hLater
                exact absurd (hLater.trans hCreations.le) (Nat.not_succ_le_self _)
            · rintro (hNone | hFound | hRandom')
              · exact .inl hNone
              · exact absurd hNotFound hFound
              · cases hRandom'
      · have hReturns : e ≠ ERROR_FILE_NOT_FOUND ∧ e ≠ ERROR_PATH_NOT_FOUND :=
          not_or.mp hNotFound
        rw [if_pos hReturns]
        refine iff_of_true (.inr ⟨rfl, rfl, hFailed, .inl ⟨e, rfl⟩⟩) (.inr (.inl hNotFound))

/-! ## One RP ID -/

/-- Every vault in the two files has this RP ID. -/
def SharesRpId (P : Platform) (rpId : Bytes) (m : Machine) : Prop :=
  ∀ v, vaultIn P m.disk .primary = some v ∨ vaultIn P m.disk .backup = some v → v.rpId = rpId

/-- A call that respects the vault that is there keeps the RP ID and returns no other. -/
theorem OneIdentity.rpId {rpId : Bytes} {m n : Machine} {o : Outcome Bytes (Except DWORD Vault)}
    (h : OneIdentity P m o n) (hThere : ¬ NoFiles m) (hShared : SharesRpId P rpId m) :
    SharesRpId P rpId n ∧ ∀ v, o = .returned (.ok v) → v.rpId = rpId := by
  obtain ⟨hDisk, -, -, hEnd⟩ := h.resolve_left hThere
  refine ⟨?_, ?_⟩
  · unfold SharesRpId at hShared ⊢
    rwa [hDisk]
  · rintro v rfl
    rcases hEnd with ⟨e, hError⟩ | ⟨w, hReturned, hStored⟩
    · cases hError
    · cases hReturned
      exact hShared v hStored

/-! ## Runs -/

/-- One call of `LoadOrCreate`, after the two files came to be as given. -/
structure Visit where
  environment : Environment
  primary : Option Bytes
  backup : Option Bytes

/-- The machine that the call finds. -/
def Visit.found (visit : Visit) (m : Machine) : Machine :=
  (m.setFile .primary visit.primary).setFile .backup visit.backup

/-- The machine after the call. -/
def Visit.step (P : Platform) (m : Machine) (visit : Visit) : Machine :=
  (loadOrCreate P visit.environment (visit.found m)).2

/-- In a run over any sequence of states of the two files, every call respects the
vault that is there exactly when every call recognizes it. -/
theorem oneIdentity_run_iff (m : Machine) (visits : List Visit) :
    History.Along (Visit.step P) (fun n visit => OneIdentity P (visit.found n)
        (loadOrCreate P visit.environment (visit.found n)).1
        (loadOrCreate P visit.environment (visit.found n)).2) m visits ↔
      History.Along (Visit.step P) (fun n visit =>
        Recognized P visit.environment (visit.found n)) m visits := by
  constructor
  · exact History.Along.mono fun n (visit : Visit) =>
      (loadOrCreate_oneIdentity_iff (visit.found n)).mp
  · exact History.Along.mono fun n (visit : Visit) =>
      (loadOrCreate_oneIdentity_iff (visit.found n)).mpr

/-- While there is a file, and the vaults that come into the files share their RP ID, every
call that recognizes what is there returns this RP ID, and leaves it in the files. -/
theorem rpId_along {rpId : Bytes} {m : Machine} {visits : List Visit}
    (h : History.Along (Visit.step P) (fun n visit =>
      Recognized P visit.environment (visit.found n) ∧ ¬ NoFiles (visit.found n) ∧
        SharesRpId P rpId (visit.found n)) m visits) :
    History.Along (Visit.step P) (fun n visit => SharesRpId P rpId (visit.step P n) ∧
      ∀ v, (loadOrCreate P visit.environment (visit.found n)).1 = .returned (.ok v) →
        v.rpId = rpId) m visits :=
  h.mono fun n visit ⟨hRecognized, hThere, hShared⟩ =>
    ((loadOrCreate_oneIdentity_iff (visit.found n)).mpr hRecognized).rpId hThere hShared

section Example

open Reference

/-- The files that a new vault replaces: no primary file, and a backup that DPAPI or the
parser refuses. -/
def damaged : Visit := { environment := calm, primary := none, backup := some [0] }

theorem oneIdentity_run_counterexample :
    ¬ ∀ (P : Platform) (m : Machine) (visits : List Visit),
      History.Along (Visit.step P) (fun n visit => OneIdentity P (visit.found n)
        (loadOrCreate P visit.environment (visit.found n)).1
        (loadOrCreate P visit.environment (visit.found n)).2) m visits := by
  intro h
  obtain ⟨hIdentity, -⟩ := h (platform {}) (machine none none) [damaged]
  have hRecognized := (loadOrCreate_oneIdentity_iff (damaged.found (machine none none))).mp hIdentity
  have hBackup : readResult (platform {}) calm .backup (damaged.found (machine none none)).next =
      .error ERROR_INVALID_DATA := by decide +kernel
  rcases hRecognized ERROR_FILE_NOT_FOUND ERROR_INVALID_DATA rfl hBackup with
    ⟨-, hNone⟩ | hFound | hRandom
  · have hThere : (damaged.found (machine none none)).disk .backup = some [0] := rfl
    cases hThere.symm.trans hNone
  · exact hFound (.inl (by decide))
  · cases hRandom

end Example

end LocalCredentialStore
end WindowsFidoLogon
