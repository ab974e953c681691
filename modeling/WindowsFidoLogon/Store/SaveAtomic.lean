import WindowsFidoLogon.Model.Reference
import WindowsFidoLogon.Store.Seal

/-!
# `Save` is atomic and durable

`save_ends` describes where a `Save` leaves the files and the registry.  Here this
is turned into what a later `Load` returns.
-/

namespace WindowsFidoLogon
namespace LocalCredentialStore

open Program

variable {P : Platform} {E : Environment}

/-- When reads succeed, `Load` returns the vault of the primary file, or else that
of the backup, and fails only if neither is there. -/
theorem meets_load_of_readsSucceed (hReads : ReadsSucceed E) (m : Machine) :
    Meets (load P E) m fun o n => n.disk = m.disk ∧
      ∃ r, o = .returned r ∧ r.toOption = loadedVault P m.disk := by
  unfold load
  rw [meets_bind]
  refine (meets_readValidVault_of_readsSucceed hReads .primary m).mono ?_
  rintro _ n ⟨hDisk, _, _, r, rfl, hr⟩
  unfold loadedVault
  rw [← hr]
  cases r with
  | ok v => exact ⟨hDisk, _, rfl, rfl⟩
  | error e =>
      dsimp only
      rw [meets_bind]
      refine (meets_readValidVault_of_readsSucceed hReads .backup n).mono ?_
      rintro _ k ⟨hDisk', _, _, r', rfl, hr'⟩
      rw [hDisk] at hr'
      cases r' with
      | ok v => exact ⟨hDisk'.trans hDisk, _, rfl, hr'⟩
      | error e' => exact ⟨hDisk'.trans hDisk, _, rfl, hr'⟩

theorem load_returned_iff (hReads : ReadsSucceed E) {m : Machine} {v : Vault} :
    (load P E m).1 = .returned (.ok v) ↔ loadedVault P m.disk = some v := by
  obtain ⟨_, r, hLoad, hr⟩ : (load P E m).2.disk = m.disk ∧
      ∃ r, (load P E m).1 = .returned r ∧ r.toOption = loadedVault P m.disk :=
    meets_load_of_readsSucceed hReads m
  rw [hLoad, ← hr]
  cases r with
  | ok w => simp [Except.toOption]
  | error e => simp [Except.toOption]

/-- A valid vault with well-formed text is the one that is loaded once its file is
in place, if that is not too long. -/
theorem replacement_of_wellFormed (hT : P.Transcodes) (hProtects : P.Protects)
    (hParses : P.ParsesDumps) {v₀ v : Vault} {tick : Nat} (hv : isVaultValid P v = true)
    (hText : ∀ a ∈ v.accounts, WellFormed P a.sid ∧ WellFormed P a.username)
    (hSize : ∀ salt plaintext, P.dump (vaultToJson P v) = .ok plaintext →
      (P.cryptProtectData salt plaintext).length ≤ maximumFileBytes) :
    replacement P v₀ v tick = v := by
  unfold replacement
  cases hDump : P.dump (vaultToJson P v) with
  | error e => rfl
  | ok plaintext =>
      dsimp only
      rw [opensAs, vaultOf_seal hProtects hParses hv hDump, transcodedVault_of_wellFormed hT hv hText,
        if_neg (Nat.not_lt.mpr (hSize _ plaintext hDump)), if_pos hv]
      rfl

/-- Whatever fails and wherever the process stops, a later `Load` succeeds and
returns the old vault or the new one: the new one if `Save` returned true, and the
old one, under the old or the untouched policy, if it returned false and nothing
failed while it put things back. -/
theorem save_atomic_durable (hT : P.Transcodes) (hProtects : P.Protects)
    (hParses : P.ParsesDumps) (hReads : ReadsSucceed E) {m : Machine} {v₀ v₁ : Vault}
    (h₀ : (load P E m).1 = .returned (.ok v₀))
    (hText : ∀ a ∈ v₁.accounts, WellFormed P a.sid ∧ WellFormed P a.username)
    (hSize : ∀ salt plaintext, P.dump (vaultToJson P v₁) = .ok plaintext →
      (P.cryptProtectData salt plaintext).length ≤ maximumFileBytes) :
    ∃ v, (v = v₀ ∨ v = v₁) ∧
      (∀ E', ReadsSucceed E' → (load P E' (save P E v₁ m).2).1 = .returned (.ok v)) ∧
      ((save P E v₁ m).1 = .returned (.ok ()) → v = v₁) ∧
      (∀ e, (save P E v₁ m).1 = .returned (.error e) → failures (save P E v₁ m).2 = failures m →
        v = v₀ ∧ ((save P E v₁ m).2.registry = m.registry ∨
          (save P E v₁ m).2.registry = publishedPolicy v₀)) := by
  have hLoaded := (load_returned_iff hReads).mp h₀
  by_cases hv : isVaultValid P v₁ = true
  · -- a valid vault: `save_ends` applies
    have hEnds : Meets (save P E v₁) m (Ended P v₀ v₁ (replacement P v₀ v₁ m.tick) m) :=
      save_ends hReads hLoaded
    rw [replacement_of_wellFormed hT hProtects hParses hv hText hSize] at hEnds
    unfold Meets at hEnds
    obtain ⟨v, hv', hEnd⟩ := hEnds
    refine ⟨v, ?_, fun E' hReads' => (load_returned_iff hReads').mpr hv', ?_, ?_⟩
    · exact hEnd.old_or_new
    · intro hReturned
      rw [hReturned] at hEnd
      exact hEnd.1
    · intro e hReturned hComp
      rw [hReturned] at hEnd
      exact hEnd.2 hComp
  · -- an invalid vault is rejected before anything happens
    have hRejected : save P E v₁ m = (.returned (.error ERROR_INVALID_DATA), m) := by
      unfold save
      rw [if_pos (by simpa using hv)]
      rfl
    rw [hRejected]
    refine ⟨v₀, .inl rfl, fun E' hReads' => (load_returned_iff hReads').mpr hLoaded, ?_, ?_⟩
    · intro h
      cases h
    · exact fun _ _ _ => ⟨rfl, .inl rfl⟩

section Example

open Reference

/-- A machine whose vault is empty. -/
def emptyMachine : Machine := machine (some (vault [])) none

/-- The vault after `alice` registered her first key and enforcement. -/
def enforcingVault : Vault := vault [alice true [credential (Text.text "AAAA")]]

/-- Saving the first enforcing vault over an empty one. -/
theorem save_atomic_durable_example :
    ∃ v, (v = vault [] ∨ v = enforcingVault) ∧
      (∀ E', ReadsSucceed E' →
        (load (platform {}) E' (save (platform {}) calm enforcingVault emptyMachine).2).1 =
          .returned (.ok v)) ∧
      ((save (platform {}) calm enforcingVault emptyMachine).1 = .returned (.ok ()) →
        v = enforcingVault) ∧
      (∀ e, (save (platform {}) calm enforcingVault emptyMachine).1 = .returned (.error e) →
        failures (save (platform {}) calm enforcingVault emptyMachine).2 = failures emptyMachine →
        v = vault [] ∧
          ((save (platform {}) calm enforcingVault emptyMachine).2.registry =
              emptyMachine.registry ∨
            (save (platform {}) calm enforcingVault emptyMachine).2.registry =
              publishedPolicy (vault []))) := by
  have hReads : ReadsSucceed calm := fun _ _ => rfl
  refine save_atomic_durable (transcodes _) (protects _) (parsesDumps _) hReads ?_ ?_ ?_
  · rw [load_returned_iff hReads]
    decide +kernel
  · intro a ha
    obtain rfl : a = alice true [credential (Text.text "AAAA")] := List.mem_singleton.mp ha
    exact ⟨.inr ⟨_, rfl⟩, .inr ⟨_, rfl⟩⟩
  · intro salt plaintext hDump
    obtain ⟨-, rfl⟩ := of_dump_eq_ok hDump
    have hShort : (vaultToJson (platform {}) enforcingVault).render.length < 1000 := by
      decide +kernel
    show (1 :: (vaultToJson (platform {}) enforcingVault).render).length ≤ maximumFileBytes
    rw [List.length_cons, maximumFileBytes]
    omega

end Example

end LocalCredentialStore
end WindowsFidoLogon
