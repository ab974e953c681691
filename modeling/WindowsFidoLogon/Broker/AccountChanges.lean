import WindowsFidoLogon.Broker.Changes

/-!
# One account through the changes

A change of a table concerns the account of one SID in a few ways only, and
`AccountChange` lists them.  What is to be shown of an account over a request is shown
for each of them once; `Regime.keeps_account` carries it to the tables.
-/

namespace WindowsFidoLogon
namespace BrokerService

open Program Text LocalAccount LocalCredentialStore Environment Handling

variable {P : Platform} {E : Environment}

/-- What a change by the request `H` does to the account of `s`, when the accounts that
loads find for it are `Known`. -/
inductive AccountChange (P : Platform) (E : Environment) (H : Handling) (Done : Prop) (n : Machine)
    (Known : Option AccountRecord → Prop) (s : WString) :
    Option AccountRecord → Option AccountRecord → Prop
  /-- it concerns another account -/
  | other (x : Option AccountRecord) : AccountChange P E H Done n Known s x x
  | rename (a : AccountRecord) (name : WString) :
      AccountChange P E H Done n Known s (some a) (some { a with username := name })
  | vanish (x : Option AccountRecord) : Vanished P E H.before.machine.tick n.tick s →
      AccountChange P E H Done n Known s x none
  | count {x : Option AccountRecord} {a : AccountRecord} {session : Session}
      {record : CredentialRecord} {value : Json} {assertion : FIDOSignResponse}
      {front : FIDOAssertionData} {counter : UInt32} :
      Entered E H .authentication session n ∨ Entered E H .removalAuthorization session n →
      H.request.at_ (text "assertion") = .ok value → assertionFromJson value = .ok assertion →
      assertion.assertions = [front] → wcsicmpEq session.targetSid s = true → Known (some a) →
      a.credentials.find? (fun item => item.credentialId == front.credentialid) = some record →
      FidoVerifier.verifyAssertion P record session.challenge session.rpId session.origin
        assertion = .ok counter →
      AccountChange P E H Done n Known s x (some { a with
        credentials := setSignCount record.credentialId counter a.credentials })
  | register {x : Option AccountRecord} {session : Session} {registration : RegistrationResult}
      {createdAt : Bytes} {base : AccountRecord} :
      MayRegister P E H session registration n → Done → wcsicmpEq session.targetSid s = true →
      base = x.getD { sid := session.targetSid, username := session.username } →
      AccountChange P E H Done n Known s x (some { base with
        username := session.username
        credentials := base.credentials ++ [newCredential session registration createdAt] })
  | remove {a : AccountRecord} {sid : WString} {credentialId : Bytes} :
      MayRemove P E H sid credentialId n → Done → wcsicmpEq sid s = true →
      ¬ (a.enforced = true ∧ a.credentials.length ≤ 1) →
      AccountChange P E H Done n Known s (some a) (some (eraseCredential credentialId a))
  | enforce {a : AccountRecord} {sid : WString} {enabled : Bool} :
      MayEnforce P E H sid enabled n → Done → wcsicmpEq sid s = true →
      AccountChange P E H Done n Known s (some a) (some { a with enforced := enabled })

variable {H : Handling} {Done : Prop} {n : Machine} {Known : List AccountRecord → Prop}
  {Steady : Prop}

theorem Change.distinct {A A' : List AccountRecord} (h : Change P E H Done n Known Steady A A')
    (hDistinct : DistinctSids A) : DistinctSids A' := by
  cases h with
  | count => exact hDistinct.upsert _
  | register => exact hDistinct.upsert _
  | remove => exact hDistinct.modifyAccount fun _ => rfl
  | enforce => exact hDistinct.modifyAccount fun _ => rfl
  | refresh hRefreshed => exact hRefreshed.distinct hDistinct

/-- A change of a table, as the account of `s` sees it. -/
theorem Change.accountOf {A A' : List AccountRecord} (h : Change P E H Done n Known Steady A A')
    (hDistinct : DistinctSids A) {s : WString} {F : Option AccountRecord → Prop}
    (hKnown : ∀ B, Known B → F (LocalCredentialStore.accountOf s B)) :
    AccountChange P E H Done n F s (LocalCredentialStore.accountOf s A)
      (LocalCredentialStore.accountOf s A') := by
  cases h with
  | @count B session account record value assertion front counter hEntered hValue hAssertion hOne
      hB _ hAccount hRecord hVerify =>
      rw [accountOf_upsert]
      split_ifs with hSame
      · -- the account that was found has the SID it was looked up by
        have hTarget : wcsicmpEq session.targetSid s = true :=
          wcsicmpEq_trans (wcsicmpEq_symm (sid_of_accountOf hAccount)) hSame
        rw [accountOf_congr hTarget] at hAccount
        exact .count hEntered hValue hAssertion hOne hTarget (hAccount ▸ hKnown B hB) hRecord hVerify
      · exact .other _
  | @register session registration createdAt base hMay hDone hNew hBase =>
      have hSid : wcsicmpEq base.sid session.targetSid = true := by
        rw [hBase]
        cases hFound : LocalCredentialStore.accountOf session.targetSid A with
        | none => exact wcsicmpEq_refl _
        | some a => exact sid_of_accountOf hFound
      rw [accountOf_upsert]
      split_ifs with hSame
      · have hTarget : wcsicmpEq session.targetSid s = true :=
          wcsicmpEq_trans (wcsicmpEq_symm hSid) hSame
        rw [accountOf_congr hTarget] at hBase
        exact .register hMay hDone hTarget hBase
      · exact .other _
  | @remove sid credentialId account hMay hDone hAccount hSpare =>
      rw [accountOf_modifyAccount (f := eraseCredential credentialId) fun _ => rfl]
      split_ifs with hSame
      · rw [← accountOf_congr hSame, hAccount]
        exact .remove hMay hDone hSame hSpare
      · exact .other _
  | @enforce sid enabled account hMay hDone hAccount =>
      rw [accountOf_modifyAccount (f := fun item => { item with enforced := enabled }) fun _ => rfl]
      split_ifs with hSame
      · rw [← accountOf_congr hSame, hAccount]
        exact .enforce hMay hDone hSame
      · exact .other _
  | refresh hRefreshed =>
      rcases hRefreshed.accountOf hDistinct s with ⟨name, hName⟩ | ⟨hNone, hVanished⟩
      · rw [hName]
        cases LocalCredentialStore.accountOf s A with
        | none => exact .other _
        | some a => exact .rename a name
      · rw [hNone]
        exact .vanish _ hVanished

/-! ## Over the tables -/

theorem sidKey_transcoded {A : List AccountRecord} (hText : ∀ a ∈ A, transcoded P a.sid = a.sid) :
    ∀ a ∈ A, sidKey (transcodedAccount P a) = sidKey a :=
  fun a ha => congrArg caseKey (hText a ha)

theorem distinct_transcoded {A : List AccountRecord} (hDistinct : DistinctSids A)
    (hText : ∀ a ∈ A, transcoded P a.sid = a.sid) : DistinctSids (A.map (transcodedAccount P)) :=
  Keyed.Distinct.map hDistinct (sidKey_transcoded hText)

theorem accountOf_transcoded {A : List AccountRecord} (hText : ∀ a ∈ A, transcoded P a.sid = a.sid)
    (s : WString) :
    accountOf s (A.map (transcodedAccount P)) = (accountOf s A).map (transcodedAccount P) := by
  rw [accountOf_eq_lookup, accountOf_eq_lookup]
  exact Keyed.lookup_map (sidKey_transcoded hText) _

/-- A table without double SIDs, whose account of `s` has the property `F`. -/
structure TableWith (s : WString) (F : Option AccountRecord → Prop) (A : List AccountRecord) :
    Prop where
  distinct : DistinctSids A
  account : F (accountOf s A)

/-- What each change of the account of `s` keeps, unless there is a reason `J`, the tables
keep, unless there is this reason. -/
theorem Regime.keeps_account {R : Regime P E} {F : Option AccountRecord → Prop} {J : Prop}
    {s : WString} (hText : ∀ a, F (some a) → F (some (transcodedAccount P a)))
    (hChange : ∀ x y, AccountChange P E H Done n F s x y → F x → F y ∨ J)
    (hSpoil : ∀ v, R.Spoils v → F (accountOf s v.accounts) → J) :
    R.Keeps H Done n (TableWith s F) J := by
  intro A v hA hChanged
  have hDistinct := hChanged.distinct hA.distinct
  rcases hChange _ _ (hChanged.accountOf hA.distinct fun B hB => hB.account) hA.account with hNew | hJ
  · -- a vault that spoils the save leaves only the reason
    by_cases hSpoils : R.Spoils v
    · exact .inl (hSpoil v hSpoils hNew)
    · refine .inr ⟨hSpoils, fun hStored => ⟨distinct_transcoded hDistinct hStored, ?_⟩⟩
      rw [accountOf_transcoded hStored]
      cases hFound : LocalCredentialStore.accountOf s v.accounts with
      | none =>
          rw [hFound] at hNew
          exact hNew
      | some a =>
          rw [hFound] at hNew
          exact hText a hNew
  · exact .inl hJ

/-- The start of a process renames accounts, and drops those that vanished. -/
theorem Regime.keeps_startUp {R : Regime P E} {F : Option AccountRecord → Prop} {J : Prop}
    {s : WString} {b : Broker} (hText : ∀ a, F (some a) → F (some (transcodedAccount P a)))
    (hName : ∀ a name, F (some a) → F (some { a with username := name }))
    (hGone : Vanished P E b.machine.tick n.tick s → F none ∨ J)
    (hSpoil : ∀ v, R.Spoils v → F (LocalCredentialStore.accountOf s v.accounts) → J) :
    R.Keeps (Handling.startUp b) False n (TableWith s F) J := by
  refine keeps_account hText (fun x y hChange hx => ?_) hSpoil
  cases hChange with
  | other => exact .inl hx
  | rename a name => exact .inl (hName a name hx)
  | vanish _ hVanished => exact hGone hVanished
  | count _ hValue => cases hValue
  | register _ hDone => exact hDone.elim
  | remove _ hDone => exact hDone.elim
  | enforce _ hDone => exact hDone.elim

end BrokerService
end WindowsFidoLogon
