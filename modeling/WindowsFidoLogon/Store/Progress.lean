import WindowsFidoLogon.Store.Steps

/-!
# What every call of the store does

Many facts about the store hold of every call because they hold of every step.  `Steps R`
says that all single steps relate the machines before and after them by `R`, and then
so do `Save` and `LoadOrCreate`.  `Transacts R` says this of these calls, and then so does
every operation of the store, whatever its single steps are.

The first instance is `Later`: time passes, and nothing is taken out of the log.
-/

namespace WindowsFidoLogon

open Program Environment

namespace Later

theorem setFile (f : VaultFile) (c : Option Bytes) (m : Machine) : Later m (m.setFile f c) :=
  ⟨le_refl _, List.suffix_refl _⟩

theorem setRegistry (r : Registry) (m : Machine) : Later m (m.setRegistry r) :=
  ⟨le_refl _, List.suffix_refl _⟩

theorem record (entry : LogEntry) (m : Machine) : Later m (m.record entry) :=
  ⟨le_refl _, List.suffix_cons _ _⟩

theorem next_trans {m n : Machine} (h : Later m.next n) : Later m n :=
  Trans.trans (next m) h

end Later

namespace Environment

variable {E : Environment}

theorem quiet_ask {α : Type} (answer : Nat → α) : Moves Quiet (ask answer) :=
  fun m => Quiet.next m

end Environment

namespace LocalCredentialStore

variable {P : Platform} {E : Environment} {R : Machine → Machine → Prop}

/-! ## Single steps -/

/-- Every single step of the store is an `R`-step; of the log, `Save` only adds to the
failures. -/
structure Steps (R : Machine → Machine → Prop) : Prop where
  refl : ∀ m, R m m
  trans : ∀ {l m n}, R l m → R m n → R l n
  next : ∀ m : Machine, R m m.next
  setFile : ∀ f c m, R m (m.setFile f c)
  setRegistry : ∀ r m, R m (m.setRegistry r)
  failed : ∀ m, R m (m.record .compensationFailed)

namespace Steps

/-- The rules for programs apply to `R`. -/
theorem bind (h : Steps R) {α β : Type} {x : Call α} {f : α → Call β} (hx : Moves R x)
    (hf : ∀ a, Moves R (f a)) : Moves R (x >>= f) :=
  haveI : IsTrans Machine R := ⟨fun _ _ _ => h.trans⟩
  Moves.bind hx hf

theorem pure (h : Steps R) {α : Type} (a : α) : Moves R (Pure.pure a : Call α) :=
  fun m => h.refl m

theorem ofExcept (h : Steps R) {α : Type} (r : Except Bytes α) :
    Moves R (Program.ofExcept r : Call α) := by
  cases r with
  | ok a => exact h.pure a
  | error e => exact fun m => h.refl m

theorem next_trans (h : Steps R) {m n : Machine} (hn : R m.next n) : R m n :=
  h.trans (h.next m) hn

theorem wreckFile (h : Steps R) (f : VaultFile) (c : Bytes) (w : Wreck) (m : Machine) :
    R m (m.wreckFile f c w) := by
  cases w with
  | untouched => exact h.refl m
  | complete => exact h.setFile f (some c) m
  | torn left => exact h.setFile f left m

theorem atomicStep (h : Steps R) {effect : Machine → Machine} (hEffect : ∀ m, R m (effect m)) :
    Moves R (E.atomicStep effect) := fun m =>
  meets_atomicStep (Q := fun _ n => R m n) (h.next_trans (hEffect _)) (fun _ => h.next m)
    (h.next m) (h.next_trans (hEffect _))

theorem fileStep (h : Steps R) (file : VaultFile) (content : Bytes) :
    Moves R (E.fileStep file content) := fun m =>
  meets_fileStep (Q := fun _ n => R m n) (h.next_trans (h.setFile ..))
    (fun _ _ => h.next_trans (h.wreckFile ..)) (fun _ => h.next_trans (h.wreckFile ..))

theorem copyFile (h : Steps R) (source target : VaultFile) : Moves R (E.copyFile source target) :=
  fun m => meets_copyFile (Q := fun _ n => R m n) (fun _ => h.next m)
    (fun _ _ => h.next_trans (h.setFile ..)) (fun _ _ _ _ => h.next_trans (h.wreckFile ..))
    (fun _ _ _ => h.next_trans (h.wreckFile ..))

theorem moved (h : Steps R) (source target : VaultFile) (c : Bytes) (m : Machine) :
    R m (moved source target c m) :=
  h.trans (h.setFile target (some c) m) (h.setFile source none _)

theorem moveFile (h : Steps R) (source target : VaultFile) : Moves R (E.moveFile source target) :=
  fun m => meets_moveFile (Q := fun _ n => R m n) (fun _ => h.next m)
    (fun _ _ => h.next_trans (h.moved ..)) (fun _ => h.next m) (h.next m)
    (fun _ _ => h.next_trans (h.moved ..))

theorem deleteFile (h : Steps R) (file : VaultFile) : Moves R (E.deleteFile file) :=
  h.bind (h.atomicStep (h.setFile file none)) fun _ => h.pure ()

theorem readValidVault (h : Steps R) (file : VaultFile) :
    Moves R (LocalCredentialStore.readValidVault P E file) :=
  fun m => meets_readValidVault (Q := fun _ n => R m n) (fun _ => h.next m)
    (fun _ _ _ _ _ => h.next m) (fun _ _ _ _ => h.next m)

theorem synchronizeEnforcedRegistry (h : Steps R) (v : Vault) :
    Moves R (LocalCredentialStore.synchronizeEnforcedRegistry E v) := by
  refine h.bind (h.atomicStep h.refl) fun r => ?_
  cases r with
  | error e => exact h.pure _
  | ok _ =>
      refine h.bind (h.atomicStep fun m => h.setRegistry _ m) fun r => ?_
      cases r with
      | error e => exact h.pure _
      | ok _ => exact h.atomicStep fun m => h.setRegistry _ m

theorem keepBackup (h : Steps R) : Moves R (LocalCredentialStore.keepBackup P E) := by
  refine h.bind (h.readValidVault _) fun r => ?_
  cases r with
  | ok v =>
      refine h.bind (h.copyFile _ _) fun r => ?_
      cases r <;> exact h.pure _
  | error e =>
      refine h.bind (h.readValidVault _) fun r => ?_
      cases r <;> exact h.pure _

theorem rollBack (h : Steps R) (previous : Option Vault) :
    Moves R (LocalCredentialStore.rollBack E previous) := by
  have hRestore : Moves R (restorePreviousFile E previous) := by
    unfold restorePreviousFile
    split_ifs
    · exact h.pure _
    · refine h.bind (h.copyFile _ _) fun r => ?_
      cases r with
      | error e => exact h.pure _
      | ok _ =>
          refine h.bind (h.moveFile _ _) fun r => ?_
          cases r with
          | ok _ => exact h.pure _
          | error e => exact h.bind (h.deleteFile _) fun _ => h.pure _
  refine h.bind hRestore fun restored => ?_
  split_ifs
  · exact h.pure _
  · exact h.failed

theorem republish (h : Steps R) (previous : Option Vault) :
    Moves R (LocalCredentialStore.republish E previous) := by
  cases previous with
  | none => exact h.pure _
  | some v =>
      refine h.bind (h.synchronizeEnforcedRegistry v) fun r => ?_
      cases r with
      | ok _ => exact h.pure _
      | error e => exact h.failed

theorem replacePrimary (h : Steps R) (v : Vault) (previous : Option Vault) :
    Moves R (LocalCredentialStore.replacePrimary E v previous) := by
  refine h.bind (h.moveFile _ _) fun r => ?_
  cases r with
  | error e =>
      refine h.bind (h.republish _) fun _ => ?_
      exact h.bind (h.deleteFile _) fun _ => h.pure _
  | ok _ =>
      dsimp only
      split_ifs
      · exact h.pure _
      · refine h.bind (h.synchronizeEnforcedRegistry v) fun r => ?_
        cases r with
        | ok _ => exact h.pure _
        | error e =>
            refine h.bind (h.rollBack _) fun _ => ?_
            exact h.bind (h.republish _) fun _ => h.pure _

theorem publishAndReplace (h : Steps R) (v : Vault) (previous : Option Vault) :
    Moves R (LocalCredentialStore.publishAndReplace E v previous) := by
  unfold LocalCredentialStore.publishAndReplace
  split_ifs
  · refine h.bind (h.synchronizeEnforcedRegistry v) fun r => ?_
    cases r with
    | ok _ => exact h.replacePrimary v previous
    | error e =>
        refine h.bind (h.republish _) fun _ => ?_
        exact h.bind (h.deleteFile _) fun _ => h.pure _
  · exact h.replacePrimary v previous

theorem save (h : Steps R) (v : Vault) : Moves R (LocalCredentialStore.save P E v) := by
  unfold LocalCredentialStore.save
  split_ifs
  · exact h.pure _
  refine h.bind (h.atomicStep h.refl) fun r => ?_
  cases r with
  | error e => exact h.pure _
  | ok _ =>
      refine h.bind (h.ofExcept _) fun plaintext => ?_
      refine h.bind (fun m => h.fileStep _ _ m) fun r => ?_
      cases r with
      | error e => exact h.pure _
      | ok _ =>
          refine h.bind h.keepBackup fun r => ?_
          cases r with
          | error e => exact h.bind (h.deleteFile _) fun _ => h.pure _
          | ok previous => exact h.publishAndReplace v previous

end Steps

/-! ## Whole calls -/

/-- The calls that read and write the store are `R`-steps. -/
structure Transacts (P : Platform) (E : Environment) (R : Machine → Machine → Prop) : Prop where
  refl : ∀ m, R m m
  trans : ∀ {l m n}, R l m → R m n → R l n
  quiet : ∀ {m n}, Quiet m n → R m n
  load : Moves R (loadOrCreate P E)
  save : ∀ v, Moves R (save P E v)
  synchronize : ∀ v, Moves R (synchronizeEnforcedRegistry E v)

theorem quiet_generateHexId : Moves Quiet (generateHexId E) := by
  refine .bind (quiet_ask _) fun random => ?_
  cases random <;> exact .pure _

theorem quiet_refreshAccounts (accounts : List AccountRecord) :
    Moves Quiet (refreshAccounts P E accounts) := by
  induction accounts with
  | nil => exact .pure _
  | cons account rest ih =>
      refine .bind (quiet_ask _) fun db => ?_
      split
      · split_ifs
        · refine .bind ih fun r => ?_
          cases r <;> exact .pure _
        · exact .pure _
      · refine .bind ih fun r => ?_
        cases r <;> exact .pure _

namespace Transacts

theorem bind (h : Transacts P E R) {α β : Type} {x : Call α} {f : α → Call β} (hx : Moves R x)
    (hf : ∀ a, Moves R (f a)) : Moves R (x >>= f) :=
  haveI : IsTrans Machine R := ⟨fun _ _ _ => h.trans⟩
  Moves.bind hx hf

theorem pure (h : Transacts P E R) {α : Type} (a : α) : Moves R (Pure.pure a : Call α) :=
  fun m => h.refl m

theorem raise (h : Transacts P E R) {α : Type} (e : Bytes) :
    Moves R (Program.raise e : Call α) :=
  fun m => h.refl m

theorem ofExcept (h : Transacts P E R) {α : Type} (r : Except Bytes α) :
    Moves R (Program.ofExcept r : Call α) := by
  cases r with
  | ok a => exact h.pure a
  | error e => exact h.raise e

theorem of_quiet (h : Transacts P E R) {α : Type} {x : Call α} (hx : Moves Quiet x) : Moves R x :=
  fun m => h.quiet (hx m)

theorem findAccount (h : Transacts P E R) (sid : WString) :
    Moves R (LocalCredentialStore.findAccount P E sid) := by
  refine h.bind h.load fun r => ?_
  cases r <;> exact h.pure _

theorem upsertAccount (h : Transacts P E R) (account : AccountRecord) :
    Moves R (LocalCredentialStore.upsertAccount P E account) := by
  refine h.bind h.load fun r => ?_
  cases r with
  | error e => exact h.pure _
  | ok v => exact h.save _

theorem removeCredential (h : Transacts P E R) (sid : WString) (id : Bytes) :
    Moves R (LocalCredentialStore.removeCredential P E sid id) := by
  refine h.bind h.load fun r => ?_
  cases r with
  | error e => exact h.pure _
  | ok v =>
      dsimp only
      split
      · exact h.pure _
      · split_ifs
        · exact h.pure _
        · exact h.pure _
        · exact h.save _

theorem setEnforced (h : Transacts P E R) (sid : WString) (enforced : Bool) :
    Moves R (LocalCredentialStore.setEnforced P E sid enforced) := by
  refine h.bind h.load fun r => ?_
  cases r with
  | error e => exact h.pure _
  | ok v =>
      dsimp only
      split
      · exact h.pure _
      · split_ifs
        · exact h.pure _
        · exact h.save _

theorem refreshLocalAccounts (h : Transacts P E R) :
    Moves R (LocalCredentialStore.refreshLocalAccounts P E) := by
  refine h.bind h.load fun r => ?_
  cases r with
  | error e => exact h.pure _
  | ok v =>
      refine h.bind (h.of_quiet (quiet_refreshAccounts _)) fun r => ?_
      cases r with
      | error e => exact h.pure _
      | ok refreshed =>
          dsimp only
          split_ifs
          · exact h.save _
          · exact h.synchronize _

end Transacts

/-! ## Time passes -/

theorem steps_later : Steps Later where
  refl m := Std.Refl.refl m
  trans := Later.trans
  next := Later.next
  setFile := Later.setFile
  setRegistry := Later.setRegistry
  failed := Later.record _

theorem moves_record (entry : LogEntry) : Moves Later (record entry) :=
  .update (Later.record entry)

theorem moves_load : Moves Later (load P E) := by
  refine .bind (steps_later.readValidVault _) fun r => ?_
  cases r with
  | ok v => exact .bind (moves_record _) fun _ => .pure _
  | error e =>
      refine .bind (steps_later.readValidVault _) fun r => ?_
      cases r <;> exact .bind (moves_record _) fun _ => .pure _

theorem moves_loadOrCreate : Moves Later (loadOrCreate P E) := by
  refine .bind moves_load fun r => ?_
  cases r with
  | ok v => exact .pure _
  | error e =>
      dsimp only
      split_ifs
      · exact .pure _
      refine .bind (quiet_generateHexId.mono fun _ _ => Quiet.later) fun machineId => ?_
      split_ifs
      · exact .pure _
      refine .bind (moves_record _) fun _ => .bind (steps_later.save _) fun r => ?_
      cases r <;> exact .pure _

theorem transacts_later : Transacts P E Later where
  refl m := Std.Refl.refl m
  trans := Later.trans
  quiet := Quiet.later
  load := moves_loadOrCreate
  save := steps_later.save
  synchronize := steps_later.synchronizeEnforcedRegistry

end LocalCredentialStore

end WindowsFidoLogon
