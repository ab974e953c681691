import WindowsFidoLogon.Model.LocalCredentialStore

/-!
# What single steps can do

One lemma for each primitive call, listing every way it can end.  All results
about the store are assembled from these, so none of them unfolds a primitive.

`Later` orders the machines of a run: ticks only grow, and the log is only added
to.
-/

namespace WindowsFidoLogon

open Program LocalCredentialStore

namespace Environment

variable {E : Environment}

@[simp] theorem meets_ask {α : Type} {answer : Nat → α} {m : Machine}
    {Q : Outcome Bytes α → Machine → Prop} :
    Meets (ask answer) m Q ↔ Q (.returned (answer m.tick)) m.next := Iff.rfl

/-- An atomic step has its whole effect or none, and fails only without it. -/
theorem meets_atomicStep {effect : Machine → Machine} {m : Machine}
    {Q : Outcome Bytes (Except DWORD Unit) → Machine → Prop}
    (hdone : Q (.returned (.ok ())) (effect m.next))
    (hfail : ∀ e, Q (.returned (.error e)) m.next)
    (hstop : Q .stopped m.next)
    (hstopDone : Q .stopped (effect m.next)) : Meets (E.atomicStep effect) m Q := by
  unfold Meets atomicStep
  cases E.stepFault m.tick with
  | done => exact hdone
  | fails e w => exact hfail e
  | stops w =>
      cases w with
      | complete => exact hstopDone
      | untouched => exact hstop
      | torn c => exact hstop

/-- A file step that does not finish may leave any wreck. -/
theorem meets_fileStep {file : VaultFile} {content : Bytes} {m : Machine}
    {Q : Outcome Bytes (Except DWORD Unit) → Machine → Prop}
    (hdone : Q (.returned (.ok ())) (m.next.setFile file (some content)))
    (hfail : ∀ e w, Q (.returned (.error e)) (m.next.wreckFile file content w))
    (hstop : ∀ w, Q .stopped (m.next.wreckFile file content w)) :
    Meets (E.fileStep file content) m Q := by
  unfold Meets fileStep
  cases E.stepFault m.tick with
  | done => exact hdone
  | fails e w => exact hfail e w
  | stops w => exact hstop w

theorem meets_copyFile {source target : VaultFile} {m : Machine}
    {Q : Outcome Bytes (Except DWORD Unit) → Machine → Prop}
    (hmissing : m.disk source = none → Q (.returned (.error ERROR_FILE_NOT_FOUND)) m.next)
    (hdone : ∀ c, m.disk source = some c →
      Q (.returned (.ok ())) (m.next.setFile target (some c)))
    (hfail : ∀ c e w, m.disk source = some c →
      Q (.returned (.error e)) (m.next.wreckFile target c w))
    (hstop : ∀ c w, m.disk source = some c → Q .stopped (m.next.wreckFile target c w)) :
    Meets (E.copyFile source target) m Q := by
  unfold Meets copyFile
  cases hc : m.disk source with
  | none => exact hmissing hc
  | some c =>
      exact meets_fileStep (hdone c hc) (fun e w => hfail c e w hc) (fun w => hstop c w hc)

/-- A file was moved. -/
def moved (source target : VaultFile) (content : Bytes) (m : Machine) : Machine :=
  (m.setFile target (some content)).setFile source none

@[simp] theorem moved_registry (source target : VaultFile) (c : Bytes) (m : Machine) :
    (moved source target c m).registry = m.registry := rfl

@[simp] theorem moved_tick (source target : VaultFile) (c : Bytes) (m : Machine) :
    (moved source target c m).tick = m.tick := rfl

@[simp] theorem moved_log (source target : VaultFile) (c : Bytes) (m : Machine) :
    (moved source target c m).log = m.log := rfl

theorem moved_disk_target {source target : VaultFile} (h : target ≠ source) (c : Bytes)
    (m : Machine) : (moved source target c m).disk target = some c := by
  simp [moved, Function.update_of_ne h]

theorem moved_disk_other {source target file : VaultFile} (hs : file ≠ source)
    (ht : file ≠ target) (c : Bytes) (m : Machine) :
    (moved source target c m).disk file = m.disk file := by
  simp [moved, Function.update_of_ne hs, Function.update_of_ne ht]

theorem meets_moveFile {source target : VaultFile} {m : Machine}
    {Q : Outcome Bytes (Except DWORD Unit) → Machine → Prop}
    (hmissing : m.disk source = none → Q (.returned (.error ERROR_FILE_NOT_FOUND)) m.next)
    (hdone : ∀ c, m.disk source = some c →
      Q (.returned (.ok ())) (moved source target c m.next))
    (hfail : ∀ e, Q (.returned (.error e)) m.next)
    (hstop : Q .stopped m.next)
    (hstopDone : ∀ c, m.disk source = some c → Q .stopped (moved source target c m.next)) :
    Meets (E.moveFile source target) m Q := by
  unfold Meets moveFile
  cases hc : m.disk source with
  | none => exact hmissing hc
  | some c => exact meets_atomicStep (hdone c hc) hfail hstop (hstopDone c hc)

theorem meets_deleteFile {file : VaultFile} {m : Machine}
    {Q : Outcome Bytes Unit → Machine → Prop}
    (hdone : Q (.returned ()) (m.next.setFile file none))
    (hkept : Q (.returned ()) m.next)
    (hstop : Q .stopped m.next)
    (hstopDone : Q .stopped (m.next.setFile file none)) : Meets (E.deleteFile file) m Q := by
  unfold deleteFile
  rw [meets_bind]
  exact meets_atomicStep hdone (fun _ => hkept) hstop hstopDone

end Environment

/-! ## Reading a vault file -/

namespace LocalCredentialStore

variable {P : Platform} {E : Environment}

/-- The environment never fails to read a file that is there. -/
def ReadsSucceed (E : Environment) : Prop :=
  ∀ file n, E.readFault file n = none

/-- The vault a file holds, if it is there and valid. -/
def vaultIn (P : Platform) (d : Disk) (file : VaultFile) : Option Vault :=
  (d file).bind fun content => (vaultOf P content).toOption

theorem vaultIn_eq_some {d : Disk} {file : VaultFile} {v : Vault} :
    vaultIn P d file = some v ↔ ∃ c, d file = some c ∧ vaultOf P c = .ok v := by
  unfold vaultIn
  cases d file with
  | none => simp
  | some c =>
      cases hv : vaultOf P c with
      | error e => simp [Except.toOption, hv]
      | ok w => simp [Except.toOption, hv]

theorem vaultIn_congr {d d' : Disk} {file : VaultFile} (h : d' file = d file) :
    vaultIn P d' file = vaultIn P d file := by
  unfold vaultIn
  rw [h]

/-- A vault that was read passed the validity check. -/
theorem isVaultValid_of_vaultOf {c : Bytes} {v : Vault} (h : vaultOf P c = .ok v) :
    isVaultValid P v = true := by
  unfold vaultOf at h
  cases hu : unprotectFile P c with
  | error e => simp [hu, bind, Except.bind] at h
  | ok plaintext =>
      simp only [hu, bind, Except.bind] at h
      split at h
      · cases h
      · split_ifs at h with hvalid
        cases h
        exact hvalid

/-- Every way of reading a vault file: it is missing, it is accepted, or it is
refused. -/
theorem meets_readValidVault {file : VaultFile} {m : Machine}
    {Q : Outcome Bytes (Except DWORD Vault) → Machine → Prop}
    (hmissing : m.disk file = none → Q (.returned (.error ERROR_FILE_NOT_FOUND)) m.next)
    (haccepted : ∀ c v, m.disk file = some c → E.readFault file m.tick = none →
      vaultOf P c = .ok v → Q (.returned (.ok v)) m.next)
    (hrefused : ∀ c e, m.disk file = some c →
      (E.readFault file m.tick).isSome ∨ (∃ e', vaultOf P c = .error e') →
      Q (.returned (.error e)) m.next) :
    Meets (readValidVault P E file) m Q := by
  unfold Meets readValidVault
  cases hc : m.disk file with
  | none => exact hmissing hc
  | some c =>
      cases hf : E.readFault file m.tick with
      | some e => simpa [hf] using hrefused c e.val hc (.inl (by simp [hf]))
      | none =>
          cases hv : vaultOf P c with
          | ok v => simpa [hf, hv] using haccepted c v hc hf hv
          | error e => simpa [hf, hv] using hrefused c e hc (.inr ⟨e, hv⟩)

@[simp] theorem record_apply (entry : LogEntry) (m : Machine) :
    record entry m = (.returned (), m.record entry) := rfl

@[simp] theorem meets_record {entry : LogEntry} {m : Machine}
    {Q : Outcome Bytes Unit → Machine → Prop} :
    Meets (record entry) m Q ↔ Q (.returned ()) (m.record entry) := Iff.rfl

theorem meets_writeProtectedFile {file : VaultFile} {plaintext : Bytes} {m : Machine}
    {Q : Outcome Bytes (Except DWORD Unit) → Machine → Prop}
    (hdone : Q (.returned (.ok ()))
      (m.next.setFile file (some (P.cryptProtectData m.tick plaintext))))
    (hfail : ∀ e w, Q (.returned (.error e))
      (m.next.wreckFile file (P.cryptProtectData m.tick plaintext) w))
    (hstop : ∀ w, Q .stopped (m.next.wreckFile file (P.cryptProtectData m.tick plaintext) w)) :
    Meets (writeProtectedFile P E file plaintext) m Q :=
  Environment.meets_fileStep hdone hfail hstop

end LocalCredentialStore

/-! ## The order of a run -/

/-- `n` comes after `m` in a run. -/
structure Later (m n : Machine) : Prop where
  tick_le : m.tick ≤ n.tick
  log_suffix : m.log <:+ n.log

namespace Later

instance : Std.Refl Later := ⟨fun _ => ⟨le_refl _, List.suffix_refl _⟩⟩

theorem trans {l m n : Machine} (h : Later l m) (h' : Later m n) : Later l n :=
  ⟨h.tick_le.trans h'.tick_le, h.log_suffix.trans h'.log_suffix⟩

instance : IsTrans Machine Later := ⟨fun _ _ _ => trans⟩

theorem next (m : Machine) : Later m m.next :=
  ⟨Nat.le_succ _, List.suffix_refl _⟩

end Later

/-- Nothing happened between `m` and `n` but that time has passed. -/
structure Quiet (m n : Machine) : Prop where
  disk : n.disk = m.disk
  registry : n.registry = m.registry
  log : n.log = m.log
  tick_le : m.tick ≤ n.tick

namespace Quiet

theorem trans {l m n : Machine} (h : Quiet l m) (h' : Quiet m n) : Quiet l n :=
  ⟨h'.disk.trans h.disk, h'.registry.trans h.registry, h'.log.trans h.log,
    h.tick_le.trans h'.tick_le⟩

instance : Std.Refl Quiet := ⟨fun _ => ⟨rfl, rfl, rfl, le_refl _⟩⟩

instance : IsTrans Machine Quiet := ⟨fun _ _ _ => trans⟩

theorem next (m : Machine) : Quiet m m.next :=
  ⟨rfl, rfl, rfl, Nat.le_succ _⟩

theorem later {m n : Machine} (h : Quiet m n) : Later m n :=
  ⟨h.tick_le, h.log ▸ List.suffix_refl _⟩

end Quiet

end WindowsFidoLogon
