import WindowsFidoLogon.Library.Keyed
import WindowsFidoLogon.Model.BrokerService
import WindowsFidoLogon.Store.Seal

/-!
# The accounts of a vault as a table

Every lookup of an account compares SIDs with `IsSameSid`, so the accounts are a
table whose keys are C strings up to case, and the credentials of an account are one
whose keys are their identifiers.  The operations of the store on them are those of
such tables.
-/

namespace WindowsFidoLogon
namespace LocalCredentialStore

open Text BrokerService

/-- What `IsSameSid` compares of an account. -/
abbrev sidKey (account : AccountRecord) : WString := caseKey account.sid

/-- No two accounts have the same SID. -/
abbrev DistinctSids (accounts : List AccountRecord) : Prop := Keyed.Distinct sidKey accounts

/-- No two credentials of the account have the same identifier. -/
abbrev DistinctIds (account : AccountRecord) : Prop :=
  Keyed.Distinct CredentialRecord.credentialId account.credentials

/-! ## The operations as operations on tables -/

theorem accountOf_eq_lookup (sid : WString) (accounts : List AccountRecord) :
    accountOf sid accounts = Keyed.lookup sidKey (caseKey sid) accounts := by
  unfold accountOf Keyed.lookup
  congr 1
  funext a
  simp [wcsicmpEq, beq_eq_decide]

theorem modifyAccount_eq_modify (sid : WString) (f : AccountRecord → AccountRecord)
    (accounts : List AccountRecord) :
    modifyAccount sid f accounts = Keyed.modify sidKey (caseKey sid) f accounts := by
  induction accounts with
  | nil => rfl
  | cons a accounts ih =>
      unfold modifyAccount Keyed.modify
      rw [ih]
      simp only [wcsicmpEq_iff]

theorem upsert_eq_put (account : AccountRecord) (accounts : List AccountRecord) :
    upsert account accounts = Keyed.put sidKey account accounts := by
  unfold upsert Keyed.put
  rw [accountOf_eq_lookup]
  cases Keyed.lookup sidKey (caseKey account.sid) accounts with
  | none => rfl
  | some old => exact modifyAccount_eq_modify _ _ _

theorem setSignCount_eq_modify (id : Bytes) (counter : UInt32) (cs : List CredentialRecord) :
    setSignCount id counter cs =
      Keyed.modify CredentialRecord.credentialId id (fun c => { c with signCount := counter }) cs := by
  induction cs with
  | nil => rfl
  | cons c cs ih =>
      unfold setSignCount Keyed.modify
      rw [ih]

theorem eraseCredential_credentials (id : Bytes) (account : AccountRecord) :
    (eraseCredential id account).credentials =
      Keyed.erase CredentialRecord.credentialId id account.credentials := by
  have hSame : (fun item : CredentialRecord => item.credentialId == id) =
      fun item => decide (item.credentialId = id) := funext fun c => beq_eq_decide _ _
  unfold eraseCredential Keyed.erase
  rw [hSame]

/-! ## Lookups after each operation -/

theorem sid_of_accountOf {sid : WString} {accounts : List AccountRecord} {a : AccountRecord}
    (h : accountOf sid accounts = some a) : wcsicmpEq a.sid sid = true := by
  rw [accountOf_eq_lookup] at h
  have hKey : sidKey a = caseKey sid := Keyed.key_of_lookup h
  exact wcsicmpEq_iff.mpr hKey

theorem accountOf_congr {s s' : WString} (h : wcsicmpEq s s' = true)
    (accounts : List AccountRecord) : accountOf s accounts = accountOf s' accounts := by
  rw [accountOf_eq_lookup, accountOf_eq_lookup, wcsicmpEq_iff.mp h]

/-- A change in place that keeps the SID changes what a lookup of that SID finds. -/
theorem accountOf_modifyAccount {sid : WString} {f : AccountRecord → AccountRecord}
    (hf : ∀ a, (f a).sid = a.sid) (s : WString) (accounts : List AccountRecord) :
    accountOf s (modifyAccount sid f accounts) =
      if wcsicmpEq sid s then (accountOf s accounts).map f else accountOf s accounts := by
  simp only [accountOf_eq_lookup, modifyAccount_eq_modify]
  rw [Keyed.lookup_modify fun a ha => by rw [← ha, sidKey, hf]]
  by_cases h : caseKey sid = caseKey s
  · rw [if_pos h.symm, if_pos (wcsicmpEq_iff.mpr h), h]
  · rw [if_neg (Ne.symm h), if_neg (mt wcsicmpEq_iff.mp h)]

theorem accountOf_upsert (account : AccountRecord) (s : WString)
    (accounts : List AccountRecord) :
    accountOf s (upsert account accounts) =
      if wcsicmpEq account.sid s then some account else accountOf s accounts := by
  simp only [accountOf_eq_lookup, upsert_eq_put]
  rw [Keyed.lookup_put]
  by_cases h : caseKey account.sid = caseKey s
  · rw [if_pos h, if_pos (wcsicmpEq_iff.mpr h)]
  · rw [if_neg h, if_neg (mt wcsicmpEq_iff.mp h)]

theorem DistinctSids.modifyAccount {accounts : List AccountRecord} (h : DistinctSids accounts)
    {sid : WString} {f : AccountRecord → AccountRecord} (hf : ∀ a, (f a).sid = a.sid) :
    DistinctSids (LocalCredentialStore.modifyAccount sid f accounts) := by
  rw [modifyAccount_eq_modify]
  exact Keyed.Distinct.modify h fun a ha => by rw [← ha, sidKey, hf]

theorem DistinctSids.upsert {accounts : List AccountRecord} (h : DistinctSids accounts)
    (account : AccountRecord) : DistinctSids (LocalCredentialStore.upsert account accounts) := by
  rw [upsert_eq_put]
  exact Keyed.Distinct.put h account

/-- The account that `commit_registration` stores is put in its place. -/
theorem addCredential_eq {session : Session} {record : CredentialRecord} {v v' : Vault} {n : Nat}
    (h : addCredential session record v = .ok (v', n)) :
    ∃ base, base = (accountOf session.targetSid v.accounts).getD
        { sid := session.targetSid, username := session.username } ∧
      v' = { v with accounts := upsert { base with
        username := session.username, credentials := base.credentials ++ [record] } v.accounts } ∧
      n = base.credentials.length + 1 := by
  unfold addCredential at h
  dsimp only at h
  split_ifs at h
  cases h
  refine ⟨_, rfl, ?_, by simp⟩
  congr 1
  unfold upsert
  cases hFound : accountOf session.targetSid v.accounts with
  | none => simp [hFound]
  | some base =>
      have hSame : wcsicmpEq base.sid session.targetSid = true := sid_of_accountOf hFound
      rw [Option.getD_some, accountOf_congr hSame, hFound]
      dsimp only
      rw [modifyAccount_eq_modify, modifyAccount_eq_modify, wcsicmpEq_iff.mp hSame]

end LocalCredentialStore
end WindowsFidoLogon
