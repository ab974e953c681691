import WindowsFidoLogon.Store.Creation
import WindowsFidoLogon.Store.Stored
import WindowsFidoLogon.Store.SaveFiles

/-!
# Loads that may find another vault

A read of the primary file may fail, and then `Load` returns the vault of the backup,
which can be an older one.  The log says which loads did.  Here is what a load and a save
leave when no read is excluded from failing:

* `entriesSince` — the part of the log that was written after a machine;
* `LoadEnd` — the three ways in which `LoadOrCreate` can end;
* `steps_onlyFailures` — a save adds nothing to the log but failures;
* `primary_of_save` — what a save makes of the primary file when writes succeed;
* `transacts_sealed` — the primary file stays in place then.
-/

namespace WindowsFidoLogon

open Program Environment Machine

/-! ## The log since a machine -/

/-- The entries that the log got after `m`, the latest first. -/
def entriesSince (m n : Machine) : List LogEntry :=
  n.log.take (n.log.length - m.log.length)

theorem entriesSince_self (m : Machine) : entriesSince m m = [] := by
  unfold entriesSince
  rw [Nat.sub_self, List.take_zero]

theorem entriesSince_append {m n : Machine} {entries : List LogEntry}
    (h : n.log = entries ++ m.log) : entriesSince m n = entries := by
  unfold entriesSince
  rw [h, List.length_append, Nat.add_sub_cancel, List.take_left]

/-- The entries that were new before are still new, behind the latest ones. -/
theorem entriesSince_append_of_suffix {l m n : Machine} {entries : List LogEntry}
    (hSuffix : l.log <:+ m.log) (h : n.log = entries ++ m.log) :
    entriesSince l n = entries ++ entriesSince l m := by
  obtain ⟨first, hFirst⟩ := hSuffix
  rw [entriesSince_append hFirst.symm]
  apply entriesSince_append
  rw [h, ← hFirst, List.append_assoc]

/-- What was new before is still new. -/
theorem mem_entriesSince_of_later {l m n : Machine} (hSuffix : l.log <:+ m.log) (h : Later m n)
    {entry : LogEntry} (hMem : entry ∈ entriesSince l m) : entry ∈ entriesSince l n := by
  obtain ⟨entries, hLog⟩ := h.log_suffix
  rw [entriesSince_append_of_suffix hSuffix hLog.symm]
  exact List.mem_append_right _ hMem

/-- What is new since a machine is new since every earlier one. -/
theorem mem_entriesSince_of_suffix {l m n : Machine} (hSuffix : l.log <:+ m.log) (h : Later m n)
    {entry : LogEntry} (hMem : entry ∈ entriesSince m n) : entry ∈ entriesSince l n := by
  obtain ⟨entries, hLog⟩ := h.log_suffix
  rw [entriesSince_append hLog.symm] at hMem
  rw [entriesSince_append_of_suffix hSuffix hLog.symm]
  exact List.mem_append_left _ hMem

theorem entriesSince_of_log_eq {l m n : Machine} (h : n.log = m.log) :
    entriesSince l n = entriesSince l m := by
  unfold entriesSince
  rw [h]

namespace LocalCredentialStore

variable {P : Platform} {E : Environment}

/-! ## How a load ends -/

/-- The two files that hold vaults between the calls. -/
def VaultFile.Kept (file : VaultFile) : Prop :=
  file = .primary ∨ file = .backup

/-- How `LoadOrCreate` ends at `m`: it found a vault in a file, it returned false, or it
went on to save a new vault. -/
inductive LoadEnd (P : Platform) (E : Environment) (m : Machine) :
    Outcome Bytes (Except DWORD Vault) → Machine → Prop
  | found {file : VaultFile} {v : Vault} {n : Machine} : VaultFile.Kept file →
      vaultIn P m.disk file = some v → n.disk = m.disk → n.registry = m.registry →
      n.log = .loaded file v :: m.log → LoadEnd P E m (.returned (.ok v)) n
  | failed {e : DWORD} {n : Machine} : n.disk = m.disk → n.registry = m.registry →
      n.log = .loadFailed :: m.log → LoadEnd P E m (.returned (.error e)) n
  | created {o : Outcome Bytes (Except DWORD Vault)} {r : Outcome Bytes (Except DWORD Unit)}
      {v : Vault} {k n : Machine} : save P E v k = (r, n) → v.accounts = [] → k.disk = m.disk →
      k.log = .created :: .loadFailed :: m.log → (∀ w, o = .returned (.ok w) → w = v) →
      LoadEnd P E m o n

/-- How `Load` ends. -/
theorem load_found_or_failed (m : Machine) :
    (∃ file v n, load P E m = (.returned (.ok v), n) ∧ VaultFile.Kept file ∧
      vaultIn P m.disk file = some v ∧ n.disk = m.disk ∧ n.registry = m.registry ∧
      n.log = .loaded file v :: m.log) ∨
    ∃ e n, load P E m = (.returned (.error e), n) ∧ n.disk = m.disk ∧
      n.registry = m.registry ∧ n.log = .loadFailed :: m.log := by
  unfold load
  rw [bind_returned (readValidVault_apply .primary m)]
  cases hPrimary : readResult P E .primary m with
  | ok v =>
      exact .inl ⟨.primary, v, _, rfl, .inl rfl, vaultIn_of_readResult hPrimary, rfl, rfl, rfl⟩
  | error primaryError =>
      dsimp only
      rw [bind_returned (readValidVault_apply .backup m.next)]
      cases hBackup : readResult P E .backup m.next with
      | ok v =>
          exact .inl ⟨.backup, v, _, rfl, .inr rfl, vaultIn_of_readResult (m := m.next) hBackup, rfl,
            rfl, rfl⟩
      | error backupError => exact .inr ⟨_, _, rfl, rfl, rfl, rfl⟩

theorem meets_loadOrCreate (m : Machine) : Meets (loadOrCreate P E) m (LoadEnd P E m) := by
  unfold loadOrCreate
  rcases load_found_or_failed (P := P) (E := E) m with
    ⟨file, v, n, hLoad, hKept, hVault, hDisk, hRegistry, hLog⟩ | ⟨e, n, hLoad, hDisk, hRegistry, hLog⟩
  · rw [meets_bind_returned hLoad]
    exact .found hKept hVault hDisk hRegistry hLog
  · rw [meets_bind_returned hLoad]
    dsimp only
    split_ifs
    · exact .failed hDisk hRegistry hLog
    have hId : ∃ machineId, generateHexId E n = (.returned machineId, n.next) := by
      cases hRandom : E.random 16 n.tick with
      | none => exact ⟨_, generateHexId_of_none hRandom⟩
      | some bytes => exact ⟨_, generateHexId_of_some hRandom⟩
    obtain ⟨machineId, hId⟩ := hId
    rw [meets_bind_returned hId]
    split_ifs
    · exact .failed hDisk hRegistry hLog
    rw [meets_bind, meets_record]
    dsimp only
    rw [meets_bind]
    have hBefore : (n.next.record .created).log = .created :: .loadFailed :: m.log :=
      congrArg (List.cons LogEntry.created) hLog
    unfold Meets
    rcases hSaved : save P E { machineId, rpId := rpIdOf machineId } (n.next.record .created) with
      ⟨(e' | _) | what | _, l⟩
    · exact .created hSaved rfl hDisk hBefore nofun
    · exact .created hSaved rfl hDisk hBefore fun w hw => (Except.ok.inj (Outcome.returned.inj hw)).symm
    · exact .created hSaved rfl hDisk hBefore nofun
    · exact .created hSaved rfl hDisk hBefore nofun

/-! ## What a save leaves -/

/-- A save adds nothing to the log but failures to take something back. -/
def OnlyFailures (m n : Machine) : Prop :=
  ∃ count, n.log = List.replicate count .compensationFailed ++ m.log

theorem steps_onlyFailures : Steps OnlyFailures where
  refl m := ⟨0, rfl⟩
  trans := by
    rintro l m n ⟨first, hFirst⟩ ⟨second, hSecond⟩
    refine ⟨second + first, ?_⟩
    rw [hSecond, hFirst, ← List.append_assoc, List.replicate_append_replicate]
  next m := ⟨0, rfl⟩
  setFile _ _ _ := ⟨0, rfl⟩
  setRegistry _ _ := ⟨0, rfl⟩
  failed m := ⟨1, rfl⟩

/-- The loads in the log are those that were there. -/
theorem OnlyFailures.mem_iff {l m n : Machine} (h : OnlyFailures m n) (hSuffix : l.log <:+ m.log)
    {entry : LogEntry} (hEntry : entry ≠ .compensationFailed) :
    entry ∈ entriesSince l n ↔ entry ∈ entriesSince l m := by
  obtain ⟨count, hLog⟩ := h
  obtain ⟨entries, hBefore⟩ := hSuffix
  have hAfter : n.log = (List.replicate count .compensationFailed ++ entries) ++ l.log := by
    rw [hLog, ← hBefore, List.append_assoc]
  rw [entriesSince_append hAfter, entriesSince_append hBefore.symm, List.mem_append]
  refine or_iff_right fun hMem => hEntry ?_
  exact (List.mem_replicate.mp hMem).2

theorem OnlyFailures.creations {m n : Machine} (h : OnlyFailures m n) :
    LocalCredentialStore.creations n = LocalCredentialStore.creations m := by
  obtain ⟨count, hLog⟩ := h
  unfold LocalCredentialStore.creations
  rw [hLog, List.count_append, List.count_replicate]
  simp

/-- A load that makes no new vault leaves the policy, and its end in the log. -/
theorem LoadEnd.entries {l m n : Machine} {o : Outcome Bytes (Except DWORD Vault)}
    (h : LoadEnd P E m o n) (hSuffix : l.log <:+ m.log) (hCreated : .created ∉ entriesSince l n) :
    n.registry = m.registry ∧
      ((∃ file v, o = .returned (.ok v) ∧ isVaultValid P v = true ∧
          .loaded file v ∈ entriesSince l n) ∨
        (∃ e, o = .returned (.error e)) ∧ .loadFailed ∈ entriesSince l n) := by
  cases h with
  | @found file v _ _ hVault _ hRegistry hLog =>
      have hEntries : n.log = [.loaded file v] ++ m.log := hLog
      obtain ⟨content, -, hOpen⟩ := vaultIn_eq_some.mp hVault
      refine ⟨hRegistry, .inl ⟨file, v, rfl, isVaultValid_of_vaultOf hOpen, ?_⟩⟩
      rw [entriesSince_append_of_suffix hSuffix hEntries]
      exact List.mem_cons_self
  | @failed e _ _ hRegistry hLog =>
      have hEntries : n.log = [.loadFailed] ++ m.log := hLog
      refine ⟨hRegistry, .inr ⟨⟨e, rfl⟩, ?_⟩⟩
      rw [entriesSince_append_of_suffix hSuffix hEntries]
      exact List.mem_cons_self
  | @created _ _ v k _ hSave _ _ hLog _ =>
      have hEntries : k.log = [.created, .loadFailed] ++ m.log := hLog
      have hBefore : l.log <:+ k.log := by
        rw [hEntries]
        exact hSuffix.trans (List.suffix_append _ _)
      have hOnly : OnlyFailures k n := Moves.of_eq (steps_onlyFailures.save v) hSave
      refine absurd ((hOnly.mem_iff hBefore LogEntry.noConfusion).mpr ?_) hCreated
      rw [entriesSince_append_of_suffix hSuffix hEntries]
      exact List.mem_cons_self

/-- Without a new vault there is none in the log. -/
theorem not_created {m n : Machine} (hLater : Later m n) (h : creations n = creations m) :
    .created ∉ entriesSince m n := by
  obtain ⟨entries, hLog⟩ := hLater.log_suffix
  rw [entriesSince_append hLog.symm]
  unfold creations at h
  rw [← hLog, List.count_append] at h
  exact List.count_eq_zero.mp (by omega)

/-- When writes succeed, the primary file is the new one after a save that returned true,
and the old one otherwise. -/
theorem primary_of_save (hWrites : WritesSucceed E) (v : Vault) (m : Machine) :
    Meets (save P E v) m fun o n => n.disk .primary = m.disk .primary ∨
      o = .returned (.ok ()) ∧ ∃ content, SealedAs P v (m.tick + 1) content ∧
        n.disk .primary = some content := by
  by_cases hAccepted : Accepted P v
  · have hBoth := (meets_save_saved v m).and (save_of_writesSucceed hWrites hAccepted m)
    refine hBoth.mono ?_
    rintro o n ⟨hSaved, rfl⟩
    exact .inr ⟨rfl, (hSaved.saved rfl).2⟩
  · refine (save_of_not_accepted hAccepted m).mono ?_
    rintro o n ⟨hDisk, -⟩
    exact .inl (by rw [hDisk])

/-- A file that was sealed holds, if it can be opened, the accounts that were saved. -/
theorem accounts_of_sealedAs (hT : P.Transcodes) (hProtects : P.Protects) (hParses : P.ParsesDumps)
    {v w : Vault} {tick : Nat} {content : Bytes} (hSealed : SealedAs P v tick content)
    (hOpen : vaultOf P content = .ok w) :
    w.accounts = v.accounts.map (transcodedAccount P) ∧
      ∀ a ∈ v.accounts, transcoded P a.sid = a.sid := by
  obtain ⟨hValid, plaintext, hDump, rfl⟩ := hSealed
  obtain ⟨rfl, hText⟩ := accounts_of_seal hT hProtects hParses hValid hDump hOpen
  exact ⟨rfl, hText⟩

/-! ## While the primary file is in place -/

/-- The primary file is one that a save sealed. -/
def SealedPrimary (P : Platform) (m : Machine) : Prop :=
  ∃ v tick content, SealedAs P v tick content ∧ m.disk .primary = some content

/-- A save that returned true leaves such a file, with the accounts it was given. -/
theorem saved_ok (hT : P.Transcodes) (hProtects : P.Protects) (hParses : P.ParsesDumps) {v : Vault}
    {m n : Machine} (h : save P E v m = (.returned (.ok ()), n)) :
    SealedPrimary P n ∧ ∀ w, vaultIn P n.disk .primary = some w →
      w.accounts = v.accounts.map (transcodedAccount P) ∧
        ∀ a ∈ v.accounts, transcoded P a.sid = a.sid := by
  obtain ⟨-, content, hSealed, hPrimary⟩ := ((meets_save_saved v m).of_eq h).saved rfl
  refine ⟨⟨v, _, content, hSealed, hPrimary⟩, fun w hw => ?_⟩
  obtain ⟨content', hContent, hOpen⟩ := vaultIn_eq_some.mp hw
  obtain rfl := Option.some.inj (hContent.symm.trans hPrimary)
  exact accounts_of_sealedAs hT hProtects hParses hSealed hOpen

/-- A sealed file may be refused, but not for being absent. -/
theorem vaultOf_sealed_error (hProtects : P.Protects) {v : Vault} {tick : Nat} {content : Bytes}
    (h : SealedAs P v tick content) {e : DWORD} (hError : vaultOf P content = .error e) :
    e = ERROR_FILE_INVALID ∨ e = ERROR_INVALID_DATA := by
  obtain ⟨-, plaintext, -, rfl⟩ := h
  unfold vaultOf unprotectFile at hError
  split_ifs at hError
  · exact .inl (Except.error.inj hError).symm
  · right
    rw [hProtects.unprotect] at hError
    simp only [bind, Except.bind] at hError
    split at hError
    · exact (Except.error.inj hError).symm
    · split_ifs at hError
      exact (Except.error.inj hError).symm

theorem recognized_of_sealed (hProtects : P.Protects) {m : Machine} (h : SealedPrimary P m) :
    Recognized P E m := by
  obtain ⟨v, tick, content, hSealed, hPrimary⟩ := h
  intro primaryError backupError hRead _
  have hError : primaryError ≠ ERROR_SUCCESS ∧ ¬ NotFound primaryError := by
    unfold readResult at hRead
    rw [hPrimary] at hRead
    dsimp only at hRead
    cases hFault : E.readFault .primary m.tick with
    | some fault =>
        rw [hFault] at hRead
        obtain rfl := Except.error.inj hRead
        exact ⟨fault.2.1, fun hNone => hNone.elim fault.2.2.1 fault.2.2.2⟩
    | none =>
        rw [hFault] at hRead
        rcases vaultOf_sealed_error hProtects hSealed hRead with rfl | rfl
        · exact ⟨by decide, by unfold NotFound; decide⟩
        · exact ⟨by decide, by unfold NotFound; decide⟩
  refine .inr (.inl ?_)
  rw [if_pos hError.1]
  exact hError.2

/-- As long as writes succeed the primary file stays in place, and no new vault is made. -/
theorem transacts_sealed (hWrites : WritesSucceed E) (hProtects : P.Protects) :
    Transacts P E fun m n => SealedPrimary P m → SealedPrimary P n ∧ creations n = creations m where
  refl m h := ⟨h, rfl⟩
  trans hFirst hSecond h := by
    obtain ⟨hMiddle, hCount⟩ := hFirst h
    obtain ⟨hEnd, hCount'⟩ := hSecond hMiddle
    exact ⟨hEnd, hCount'.trans hCount⟩
  quiet hQuiet h := by
    refine ⟨?_, by rw [creations, hQuiet.log, creations]⟩
    unfold SealedPrimary
    rwa [hQuiet.disk]
  load m h := by
    rcases (loadOrCreate_oneIdentity_iff m).mpr (recognized_of_sealed (E := E) hProtects h) with
      hNone | ⟨hDisk, -, hCount, -⟩
    · obtain ⟨_, _, content, _, hPrimary⟩ := h
      cases hPrimary.symm.trans hNone.1
    · refine ⟨?_, hCount⟩
      unfold SealedPrimary
      rwa [hDisk]
  save v m h := by
    have hLog : Meets (save P E v) m fun _ n => OnlyFailures m n := steps_onlyFailures.save v m
    obtain ⟨hPrimary, hFailures⟩ := (primary_of_save hWrites v m).and hLog
    refine ⟨?_, hFailures.creations⟩
    rcases hPrimary with hOld | ⟨-, content, hSealed, hNew⟩
    · unfold SealedPrimary
      rwa [hOld]
    · exact ⟨v, _, content, hSealed, hNew⟩
  synchronize v m h := by
    have hLog : Meets (synchronizeEnforcedRegistry E v) m fun _ n => OnlyFailures m n :=
      steps_onlyFailures.synchronizeEnforcedRegistry v m
    obtain ⟨⟨hDisk, -⟩, hFailures⟩ := (meets_synchronizeEnforcedRegistry v m).and hLog
    refine ⟨?_, hFailures.creations⟩
    unfold SealedPrimary
    rwa [hDisk]

end LocalCredentialStore

end WindowsFidoLogon
