import WindowsFidoLogon.Store.SaveWindow

/-!
# What a `Save` leaves in the files

Here no fault is excluded: reads and writes may fail, and the process may stop.  Even so
the primary file and the backup only ever hold what one of them held before, the new
file, or, in the backup, the rest of a copy that was not finished.
-/

namespace WindowsFidoLogon
namespace LocalCredentialStore

open Program Environment Machine

variable {P : Platform} {E : Environment}

/-- What an unfinished write may have left. -/
def Torn (E : Environment) (content : Option Bytes) : Prop :=
  ∃ n, (∃ e, E.stepFault n = .fails e (.torn content)) ∨ E.stepFault n = .stops (.torn content)

theorem not_torn_of_writesSucceed (hWrites : WritesSucceed E) (content : Option Bytes) :
    ¬ Torn E content := by
  rintro ⟨n, ⟨e, h⟩ | h⟩
  · rw [hWrites] at h
    cases h
  · rw [hWrites] at h
    cases h

/-- The file that `Save` writes at `tick` for `v`. -/
def SealedAs (P : Platform) (v : Vault) (tick : Nat) (content : Bytes) : Prop :=
  isVaultValid P v = true ∧ ∃ plaintext, P.dump (vaultToJson P v) = .ok plaintext ∧
    content = P.cryptProtectData tick plaintext

/-! ## The phases -/

/-- What a copy that ended with `o` made of its target. -/
structure Copied (E : Environment) (source target : VaultFile) (m : Machine)
    (o : Outcome Bytes (Except DWORD Unit)) (n : Machine) : Prop where
  registry : n.registry = m.registry
  other : ∀ f, f ≠ target → n.disk f = m.disk f
  copied : o = .returned (.ok ()) → n.disk target = m.disk source
  target : n.disk target = m.disk target ∨ n.disk target = m.disk source ∨ Torn E (n.disk target)

theorem meets_copyFile_copied (source target : VaultFile) (m : Machine) :
    Meets (E.copyFile source target) m (Copied E source target m) := by
  unfold Meets Environment.copyFile
  cases hSource : m.disk source with
  | none => exact ⟨rfl, fun _ _ => rfl, nofun, .inl rfl⟩
  | some content =>
      -- what an unfinished copy leaves depends on its wreck
      have hWreck : ∀ (w : Wreck) (o : Outcome Bytes (Except DWORD Unit)),
          o ≠ .returned (.ok ()) → (∀ left, w = .torn left → Torn E left) →
          Copied E source target m o (m.next.wreckFile target content w) := by
        intro w o ho hw
        refine ⟨wreckFile_registry .., fun f hf => wreckFile_disk_of_ne hf content w m.next,
          fun h => absurd h ho, ?_⟩
        cases w with
        | untouched => exact .inl rfl
        | complete => exact .inr (.inl ((Function.update_self ..).trans hSource.symm))
        | torn left =>
            right; right
            show Torn E (Function.update m.next.disk target left target)
            rw [Function.update_self]
            exact hw left rfl
      dsimp only
      unfold Environment.fileStep
      cases hFault : E.stepFault m.tick with
      | done =>
          have hTarget : (m.next.setFile target (some content)).disk target = m.disk source :=
            (Function.update_self ..).trans hSource.symm
          exact ⟨rfl, fun f hf => Function.update_of_ne hf _ _, fun _ => hTarget,
            .inr (.inl hTarget)⟩
      | fails e w =>
          refine hWreck w _ nofun ?_
          rintro left rfl
          exact ⟨m.tick, .inl ⟨e, hFault⟩⟩
      | stops w =>
          refine hWreck w _ nofun ?_
          rintro left rfl
          exact ⟨m.tick, .inr hFault⟩

/-- What keeping the backup makes of it: it is as it was, or a copy of the primary,
unless the copy was not finished. -/
structure BackedUp (E : Environment) (m : Machine)
    (o : Outcome Bytes (Except DWORD (Option Vault))) (n : Machine) : Prop where
  registry : n.registry = m.registry
  other : ∀ f, f ≠ .backup → n.disk f = m.disk f
  backup : (n.disk .backup = m.disk .backup ∨ n.disk .backup = m.disk .primary) ∨
    Torn E (n.disk .backup) ∧ ∀ previous, o ≠ .returned (.ok previous)

theorem meets_keepBackup_backedUp (m : Machine) :
    Meets (keepBackup P E) m (BackedUp E m) := by
  have hStay : ∀ (o : Outcome Bytes (Except DWORD (Option Vault))) (n : Machine),
      n.registry = m.registry → n.disk = m.disk → BackedUp E m o n := fun o n hReg hDisk =>
    ⟨hReg, fun f _ => by rw [hDisk], .inl (.inl (by rw [hDisk]))⟩
  -- reading the backup instead leaves everything as it is
  have hRefused : ∀ f : Except DWORD Vault → Call (Except DWORD (Option Vault)),
      (∀ r, ∃ previous, f r m.next.next = (.returned (.ok previous), m.next.next)) →
      Meets (readValidVault P E .backup >>= f) m.next (BackedUp E m) := by
    intro f hf
    have hNext : ∀ r, Meets (f r) m.next.next (BackedUp E m) := fun r => by
      obtain ⟨previous, hEnd⟩ := hf r
      unfold Meets
      rw [hEnd]
      exact hStay _ _ rfl rfl
    rw [meets_bind]
    exact meets_readValidVault (fun _ => hNext _) (fun _ _ _ _ _ => hNext _) (fun _ _ _ _ => hNext _)
  unfold keepBackup
  rw [meets_bind]
  refine meets_readValidVault
    (fun _ => hRefused _ (by rintro (e | previous); exacts [⟨none, rfl⟩, ⟨some previous, rfl⟩]))
    (fun c v hc _ _ => ?_)
    (fun _ _ _ _ => hRefused _ (by rintro (e | previous); exacts [⟨none, rfl⟩, ⟨some previous, rfl⟩]))
  dsimp only
  rw [meets_bind]
  refine (meets_copyFile_copied .primary .backup m.next).mono fun o n h => ?_
  -- a copy that was not finished is the end of the matter
  have hEnd : ∀ o' : Outcome Bytes (Except DWORD (Option Vault)),
      (∀ previous, o' ≠ .returned (.ok previous)) → BackedUp E m o' n := fun o' ho' => by
    refine ⟨h.registry, h.other, ?_⟩
    rcases h.target with hOld | hCopy | hTorn
    · exact .inl (.inl hOld)
    · exact .inl (.inr hCopy)
    · exact .inr ⟨hTorn, ho'⟩
  rcases o with (e | _) | what | _
  · exact hEnd _ nofun
  · exact ⟨h.registry, h.other, .inl (.inr (h.copied rfl))⟩
  · exact hEnd _ nofun
  · exact hEnd _ nofun

/-- Rolling back leaves the primary alone or replaces it by the backup. -/
theorem rollBack_files (previous : Option Vault) (m : Machine) :
    Meets (rollBack E previous) m fun _ n =>
      n.disk .backup = m.disk .backup ∧
        (n.disk .primary = m.disk .primary ∨ n.disk .primary = m.disk .backup) := by
  unfold rollBack restorePreviousFile
  cases previous with
  | none => exact ⟨rfl, .inl rfl⟩
  | some v =>
      simp only [Option.isNone_some, Bool.false_eq_true, ↓reduceIte, bind_assoc, meets_bind]
      refine (meets_copyFile_copied .backup .rollback m).mono ?_
      rintro ((e | _) | what | _) n ⟨_, hOther, hCopied, _⟩
      · exact ⟨hOther _ (by decide), .inl (hOther _ (by decide))⟩
      · have hBackup : n.disk .backup = m.disk .backup := hOther _ (by decide)
        have hPrimary : n.disk .primary = m.disk .primary := hOther _ (by decide)
        have hRollback : n.disk .rollback = m.disk .backup := hCopied rfl
        dsimp only
        rw [meets_bind]
        have hKept : ∀ k : Machine, k.disk .backup = n.disk .backup →
            k.disk .primary = n.disk .primary → k.disk .backup = m.disk .backup ∧
              (k.disk .primary = m.disk .primary ∨ k.disk .primary = m.disk .backup) :=
          fun k hb hp => ⟨hb.trans hBackup, .inl (hp.trans hPrimary)⟩
        refine meets_moveFile (fun _ => ?_) (fun c hc => ?_) (fun e => ?_) ⟨hBackup, .inl hPrimary⟩
          (fun c hc => ?_)
        · dsimp only
          rw [meets_bind]
          exact meets_deleteFile (hKept _ (by simp) (by simp)) (hKept _ rfl rfl) (hKept _ rfl rfl)
            (hKept _ (by simp) (by simp))
        · refine ⟨(moved_disk_other (by decide) (by decide) c _).trans hBackup, .inr ?_⟩
          rw [← hRollback, hc]
          exact moved_disk_target (by decide) c _
        · dsimp only
          rw [meets_bind]
          exact meets_deleteFile (hKept _ (by simp) (by simp)) (hKept _ rfl rfl) (hKept _ rfl rfl)
            (hKept _ (by simp) (by simp))
        · refine ⟨(moved_disk_other (by decide) (by decide) c _).trans hBackup, .inr ?_⟩
          rw [← hRollback, hc]
          exact moved_disk_target (by decide) c _
      · exact ⟨hOther _ (by decide), .inl (hOther _ (by decide))⟩
      · exact ⟨hOther _ (by decide), .inl (hOther _ (by decide))⟩

/-- What a `Save` of `v` that ended with `o` leaves in the files. -/
structure Saved (P : Platform) (E : Environment) (v : Vault) (m : Machine)
    (o : Outcome Bytes (Except DWORD Unit)) (n : Machine) : Prop where
  primary : n.disk .primary = m.disk .primary ∨
    (∃ content, SealedAs P v (m.tick + 1) content ∧ n.disk .primary = some content) ∨
    hasEnforcedAccounts v = false ∧ ¬ WritesSucceed E ∧ n.disk .primary = m.disk .backup
  backup : n.disk .backup = m.disk .backup ∨ n.disk .backup = m.disk .primary ∨
    Torn E (n.disk .backup)
  saved : o = .returned (.ok ()) → n.registry = publishedPolicy v ∧
    ∃ content, SealedAs P v (m.tick + 1) content ∧ n.disk .primary = some content

/-- The end of a `Save` in the terms of its start `k`, where the new file is ready. -/
structure Replaced (E : Environment) (v : Vault) (content : Bytes) (k : Machine)
    (o : Outcome Bytes (Except DWORD Unit)) (n : Machine) : Prop where
  primary : n.disk .primary = k.disk .primary ∨ n.disk .primary = some content ∨
    hasEnforcedAccounts v = false ∧ ¬ WritesSucceed E ∧ n.disk .primary = k.disk .backup
  backup : n.disk .backup = k.disk .backup
  saved : o = .returned (.ok ()) →
    n.registry = publishedPolicy v ∧ n.disk .primary = some content

/-- Publishing the previous policy again does not touch the files. -/
theorem republish_disk (previous : Option Vault) (m : Machine) :
    Meets (republish E previous) m fun _ n => n.disk = m.disk := by
  unfold republish
  cases previous with
  | none => rfl
  | some v =>
      show Meets (synchronizeEnforcedRegistry E v >>= _) m _
      rw [meets_bind]
      refine (meets_synchronizeEnforcedRegistry v m).mono ?_
      rintro ((e | _) | what | _) n ⟨hDisk, _⟩
      · exact hDisk
      · exact hDisk
      · exact hDisk
      · exact hDisk

/-- Giving up before the file was replaced. -/
theorem replaced_of_giveUp {v : Vault} {content : Bytes} {k m : Machine} {e : DWORD}
    (previous : Option Vault) (hPrimary : m.disk .primary = k.disk .primary)
    (hBackup : m.disk .backup = k.disk .backup) :
    Meets (do republish E previous; E.deleteFile .temporary; return .error e) m
      (Replaced E v content k) := by
  have hEnd : ∀ (o : Outcome Bytes (Except DWORD Unit)) (n : Machine), o ≠ .returned (.ok ()) →
      n.disk .primary = m.disk .primary → n.disk .backup = m.disk .backup →
      Replaced E v content k o n := fun o n ho hp hb =>
    ⟨.inl (hp.trans hPrimary), hb.trans hBackup, fun h => absurd h ho⟩
  rw [meets_bind]
  refine (republish_disk previous m).mono ?_
  rintro (_ | what | _) n hDisk
  · dsimp only
    rw [meets_bind]
    exact meets_deleteFile (hEnd _ _ nofun (by simp [hDisk]) (by simp [hDisk]))
      (hEnd _ _ nofun (by simp [hDisk]) (by simp [hDisk]))
      (hEnd _ _ nofun (by simp [hDisk]) (by simp [hDisk]))
      (hEnd _ _ nofun (by simp [hDisk]) (by simp [hDisk]))
  · exact hEnd _ _ nofun (by rw [hDisk]) (by rw [hDisk])
  · exact hEnd _ _ nofun (by rw [hDisk]) (by rw [hDisk])

theorem meets_replacePrimary_replaced {v : Vault} {previous : Option Vault} {k : Machine}
    {content : Bytes} (hContent : k.disk .temporary = some content)
    (hReg : hasEnforcedAccounts v = true → k.registry = publishedPolicy v) :
    Meets (replacePrimary E v previous) k (Replaced E v content k) := by
  have hTarget : (moved .temporary .primary content k.next).disk .primary = some content :=
    moved_disk_target (by decide) content _
  have hOther : (moved .temporary .primary content k.next).disk .backup = k.disk .backup :=
    moved_disk_other (by decide) (by decide) content _
  unfold replacePrimary
  rw [meets_bind]
  refine meets_moveFile (fun hMissing => ?_) (fun c hc => ?_) (fun e => ?_)
    ⟨.inl rfl, rfl, nofun⟩ (fun c hc => ?_)
  · rw [hContent] at hMissing
    cases hMissing
  · obtain rfl : content = c := Option.some.inj (hContent.symm.trans hc)
    dsimp only
    split_ifs with hEnforced
    · exact ⟨.inr (.inl hTarget), hOther, fun _ => ⟨hReg hEnforced, hTarget⟩⟩
    · rw [meets_bind]
      have hPublish := meets_synchronizeEnforcedRegistry (E := E) v
        (moved .temporary .primary content k.next)
      have hWrites := fun h => synchronizeEnforcedRegistry_of_writesSucceed (E := E) h v
        (moved .temporary .primary content k.next)
      unfold Meets Succeeded at hWrites
      unfold Meets at hPublish ⊢
      rcases hCase : synchronizeEnforcedRegistry E v (moved .temporary .primary content k.next)
        with ⟨(e | _) | what | _, n⟩ <;> rw [hCase] at hPublish hWrites
      · -- the file is in place, its policy is not
        have hFails : ¬ WritesSucceed E := fun h => by cases hWrites h
        have hNone : hasEnforcedAccounts v = false := by simpa using hEnforced
        obtain ⟨hDisk, _⟩ := hPublish
        show Meets (rollBack E previous >>= fun _ => _) n _
        rw [meets_bind]
        refine (rollBack_files previous n).mono ?_
        intro o l hRolled
        rw [hDisk, hTarget, hOther] at hRolled
        obtain ⟨hBackup, hPrimary⟩ := hRolled
        have hHere : ∀ o' : Outcome Bytes (Except DWORD Unit), o' ≠ .returned (.ok ()) →
            ∀ l', l'.disk = l.disk → Replaced E v content k o' l' := by
          rintro o' ho' l' hSame
          refine ⟨?_, by rw [hSame]; exact hBackup, fun h => absurd h ho'⟩
          rw [hSame]
          rcases hPrimary with hp | hp
          · exact .inr (.inl hp)
          · exact .inr (.inr ⟨hNone, hFails, hp⟩)
        rcases o with _ | what | _
        · dsimp only
          rw [meets_bind]
          refine (republish_disk previous l).mono ?_
          rintro (_ | what | _) l' hSame
          · exact hHere (.returned (.error e)) nofun l' hSame
          · exact hHere (.threw what) nofun l' hSame
          · exact hHere .stopped nofun l' hSame
        · exact hHere (.threw what) nofun l rfl
        · exact hHere .stopped nofun l rfl
      · obtain ⟨hDisk, _, _, hReg'⟩ := hPublish
        have hHere : Replaced E v content k (.returned (.ok ())) n :=
          ⟨.inr (.inl (by rw [hDisk]; exact hTarget)), by rw [hDisk]; exact hOther,
            fun _ => ⟨hReg', by rw [hDisk]; exact hTarget⟩⟩
        exact hHere
      · exact hPublish.2.2.2.elim
      · have hDisk := hPublish.1
        have hHere : Replaced E v content k .stopped n :=
          ⟨.inr (.inl (by rw [hDisk]; exact hTarget)), by rw [hDisk]; exact hOther, nofun⟩
        exact hHere
  · exact replaced_of_giveUp _ rfl rfl
  · obtain rfl : content = c := Option.some.inj (hContent.symm.trans hc)
    exact ⟨.inr (.inl hTarget), hOther, nofun⟩

theorem meets_publishAndReplace_replaced {v : Vault} {previous : Option Vault} {k : Machine}
    {content : Bytes} (hContent : k.disk .temporary = some content) :
    Meets (publishAndReplace E v previous) k (Replaced E v content k) := by
  unfold publishAndReplace
  split_ifs with hEnforced
  · rw [meets_bind]
    refine (meets_synchronizeEnforcedRegistry v k).mono ?_
    rintro ((e | _) | what | _) n ⟨hDisk, _, _, hReg⟩
    · exact replaced_of_giveUp previous (by rw [hDisk]) (by rw [hDisk])
    · dsimp only
      refine (meets_replacePrimary_replaced (by rw [hDisk]; exact hContent) fun _ => hReg).mono ?_
      intro o l h
      exact ⟨hDisk ▸ h.primary, hDisk ▸ h.backup, h.saved⟩
    · exact hReg.elim
    · exact ⟨.inl (by rw [hDisk]), by rw [hDisk], nofun⟩
  · exact meets_replacePrimary_replaced hContent fun h => absurd h hEnforced

/-- Whatever fails and wherever the process stops. -/
theorem meets_save_saved (v : Vault) (m : Machine) : Meets (save P E v) m (Saved P E v m) := by
  have hStay : ∀ (o : Outcome Bytes (Except DWORD Unit)) (n : Machine), o ≠ .returned (.ok ()) →
      (∀ f, f ≠ .temporary → n.disk f = m.disk f) → Saved P E v m o n := fun o n ho hDisk =>
    ⟨.inl (hDisk _ (by decide)), .inl (hDisk _ (by decide)), fun h => absurd h ho⟩
  unfold save
  split_ifs with hInvalid
  · exact hStay _ _ nofun fun _ _ => rfl
  have hValid : isVaultValid P v = true := by simpa using hInvalid
  rw [meets_bind]
  refine meets_atomicStep ?_ (fun _ => hStay _ _ nofun fun _ _ => rfl)
    (hStay _ _ nofun fun _ _ => rfl) (hStay _ _ nofun fun _ _ => rfl)
  dsimp only [id]
  cases hDump : P.dump (vaultToJson P v) with
  | error e => exact hStay _ _ nofun fun _ _ => rfl
  | ok plaintext =>
      rw [Program.ofExcept_ok, pure_bind, meets_bind]
      set content := P.cryptProtectData m.next.tick plaintext with hContent
      have hSealed : SealedAs P v (m.tick + 1) content := ⟨hValid, plaintext, hDump, hContent⟩
      refine meets_writeProtectedFile ?_
        (fun e w => hStay _ _ nofun fun f hf => wreckFile_disk_of_ne hf ..)
        (fun w => hStay _ _ nofun fun f hf => wreckFile_disk_of_ne hf ..)
      dsimp only
      rw [meets_bind]
      have hWritten : ∀ f, f ≠ .temporary →
          (m.next.next.setFile .temporary (some content)).disk f = m.disk f :=
        fun f hf => by simp [Function.update_of_ne hf]
      refine (meets_keepBackup_backedUp _).mono ?_
      intro o n h
      have hPrimary : n.disk .primary = m.disk .primary :=
        (h.other _ (by decide)).trans (hWritten _ (by decide))
      have hBackup := h.backup
      rw [hWritten _ (by decide), hWritten _ (by decide)] at hBackup
      have hEnd : ∀ o' : Outcome Bytes (Except DWORD Unit), o' ≠ .returned (.ok ()) →
          ∀ n', n'.disk .primary = n.disk .primary → n'.disk .backup = n.disk .backup →
          Saved P E v m o' n' := by
        intro o' ho' n' hp hb
        refine ⟨.inl (hp.trans hPrimary), ?_, fun h => absurd h ho'⟩
        rw [hb]
        rcases hBackup with (hOld | hCopy) | ⟨hTorn, _⟩
        · exact .inl hOld
        · exact .inr (.inl hCopy)
        · exact .inr (.inr hTorn)
      rcases o with (e | previous) | what | _
      · dsimp only
        rw [meets_bind]
        have hFailed := hEnd (.returned (.error e)) nofun
        have hStopped := hEnd .stopped nofun
        exact meets_deleteFile (hFailed _ (by simp) (by simp)) (hFailed _ rfl rfl)
          (hStopped _ rfl rfl) (hStopped _ (by simp) (by simp))
      · dsimp only
        have hTemp : n.disk .temporary = some content :=
          (h.other _ (by decide)).trans (by rw [setFile_disk, Function.update_self])
        have hKept := hBackup.resolve_right fun hTorn => hTorn.2 previous rfl
        refine (meets_publishAndReplace_replaced hTemp).mono ?_
        intro o' n' h'
        refine ⟨?_, ?_, fun ho' => ⟨(h'.saved ho').1, content, hSealed, (h'.saved ho').2⟩⟩
        · rcases h'.primary with hp | hp | ⟨hNone, hFails, hp⟩
          · exact .inl (hp.trans hPrimary)
          · exact .inr (.inl ⟨content, hSealed, hp⟩)
          · rcases hKept with hOld | hCopy
            · exact .inr (.inr ⟨hNone, hFails, hp.trans hOld⟩)
            · exact .inl (hp.trans hCopy)
        · rw [h'.backup]
          exact hKept.elim .inl fun hCopy => .inr (.inl hCopy)
      · exact hEnd (.threw what) nofun n rfl rfl
      · exact hEnd .stopped nofun n rfl rfl

end LocalCredentialStore
end WindowsFidoLogon
