import Mathlib.Tactic.Tauto
import WindowsFidoLogon.Model.LocalCredentialStore

/-!
# What a valid vault promises

`IsVaultValid` is a chain of early returns.  Here its outcome is a structure with
one field for each promise, so that proofs can name the one they use.
-/

namespace WindowsFidoLogon
namespace LocalCredentialStore

/-- The promises of one valid credential. -/
structure ValidCredential (c : CredentialRecord) : Prop where
  algorithm : c.algorithm = kEs256Algorithm
  id_ne : Convert.base64URLDecode c.credentialId ≠ []
  id_length : (Convert.base64URLDecode c.credentialId).length ≤ 1024
  key_ne : Convert.base64URLDecode c.cosePublicKey ≠ []
  key_length : (Convert.base64URLDecode c.cosePublicKey).length ≤ 1024
  aaguid : (Convert.base64URLDecode c.aaguid).length = 16
  label_ne : c.label ≠ []
  label_length : c.label.length ≤ 128
  createdAt_length : c.createdAt.length ≤ 64
  label_printable : c.label.any isControl = false

theorem isCredentialValid_iff {c : CredentialRecord} :
    isCredentialValid c = true ↔ ValidCredential c := by
  constructor
  · intro h
    simp only [isCredentialValid, Bool.and_eq_true, beq_iff_eq, Bool.not_eq_true',
      List.isEmpty_eq_false_iff, decide_eq_true_eq] at h
    obtain ⟨⟨⟨⟨⟨⟨⟨⟨⟨h₁, h₂⟩, h₃⟩, h₄⟩, h₅⟩, h₆⟩, h₇⟩, h₈⟩, h₉⟩, h₁₀⟩ := h
    exact ⟨h₁, h₂, h₃, h₄, h₅, h₆, h₇, h₈, h₉, h₁₀⟩
  · intro h
    simp only [isCredentialValid, Bool.and_eq_true, beq_iff_eq, Bool.not_eq_true',
      List.isEmpty_eq_false_iff, decide_eq_true_eq]
    exact ⟨⟨⟨⟨⟨⟨⟨⟨⟨h.algorithm, h.id_ne⟩, h.id_length⟩, h.key_ne⟩, h.key_length⟩, h.aaguid⟩,
      h.label_ne⟩, h.label_length⟩, h.createdAt_length⟩, h.label_printable⟩

/-- The promises of one valid account. -/
structure ValidAccount (P : Platform) (a : AccountRecord) : Prop where
  sid_ne : a.sid ≠ []
  sid_length : a.sid.length ≤ 184
  username_length : a.username.length ≤ 256
  credentials_length : a.credentials.length ≤ 64
  enforced : a.enforced = true → a.credentials ≠ []
  stringSid : P.isStringSid (Text.cstr a.sid) = true
  credentials : ∀ c ∈ a.credentials, ValidCredential c
  ids_nodup : (a.credentials.map (·.credentialId)).Nodup

theorem isAccountValid_iff {P : Platform} {a : AccountRecord} :
    isAccountValid P a = true ↔ ValidAccount P a := by
  have hEnforced : (!(a.enforced && a.credentials.isEmpty)) = true ↔
      (a.enforced = true → a.credentials ≠ []) := by
    cases a.enforced <;> simp
  have hCredentials : a.credentials.all isCredentialValid = true ↔
      ∀ c ∈ a.credentials, ValidCredential c := by
    simp only [List.all_eq_true, isCredentialValid_iff]
  constructor
  · intro h
    simp only [isAccountValid, Bool.and_eq_true, hEnforced, hCredentials, Bool.not_eq_true',
      List.isEmpty_eq_false_iff, decide_eq_true_eq] at h
    obtain ⟨⟨⟨⟨⟨⟨⟨h₁, h₂⟩, h₃⟩, h₄⟩, h₅⟩, h₆⟩, h₇⟩, h₈⟩ := h
    exact ⟨h₁, h₂, h₃, h₄, h₅, h₆, h₇, h₈⟩
  · intro h
    simp only [isAccountValid, Bool.and_eq_true, hEnforced, hCredentials, Bool.not_eq_true',
      List.isEmpty_eq_false_iff, decide_eq_true_eq]
    exact ⟨⟨⟨⟨⟨⟨⟨h.sid_ne, h.sid_length⟩, h.username_length⟩, h.credentials_length⟩, h.enforced⟩,
      h.stringSid⟩, h.credentials⟩, h.ids_nodup⟩

/-- The promises of a valid vault. -/
structure ValidVault (P : Platform) (v : Vault) : Prop where
  schema : v.schemaVersion = kSchemaVersion
  machineId_length : v.machineId.length = 32
  rpId : v.rpId = rpIdOf v.machineId
  accounts_length : v.accounts.length ≤ 1024
  machineId_hex : v.machineId.all isHexDigit = true
  accounts : ∀ a ∈ v.accounts, ValidAccount P a
  sids_nodup : (v.accounts.map fun account => account.sid.map Text.towupper).Nodup

theorem isVaultValid_iff {P : Platform} {v : Vault} :
    isVaultValid P v = true ↔ ValidVault P v := by
  have hAccounts : v.accounts.all (isAccountValid P) = true ↔
      ∀ a ∈ v.accounts, ValidAccount P a := by
    simp only [List.all_eq_true, isAccountValid_iff]
  constructor
  · intro h
    simp only [isVaultValid, Bool.and_eq_true, hAccounts, beq_iff_eq, decide_eq_true_eq] at h
    obtain ⟨⟨⟨⟨⟨⟨h₁, h₂⟩, h₃⟩, h₄⟩, h₅⟩, h₆⟩, h₇⟩ := h
    exact ⟨h₁, h₂, h₃, h₄, h₅, h₆, h₇⟩
  · intro h
    simp only [isVaultValid, Bool.and_eq_true, hAccounts, beq_iff_eq, decide_eq_true_eq]
    exact ⟨⟨⟨⟨⟨⟨h.schema, h.machineId_length⟩, h.rpId⟩, h.accounts_length⟩, h.machineId_hex⟩,
      h.accounts⟩, h.sids_nodup⟩

end LocalCredentialStore
end WindowsFidoLogon
