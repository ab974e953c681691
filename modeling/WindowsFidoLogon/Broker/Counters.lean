import WindowsFidoLogon.Broker.Authorized
import WindowsFidoLogon.Broker.Finishing
import WindowsFidoLogon.Broker.Refusals

/-!
# Signature counters

The counter of a credential moves on with every assertion that is accepted for it, and
nothing else moves it: no request, whatever fails in it, takes a record back to an
earlier counter as long as the record stays.  A registration cannot, because it is refused
for a credential that is in the vault.  So an assertion with a counter that was seen before
is not accepted again.
-/

namespace WindowsFidoLogon
namespace BrokerService

open Program Text LocalAccount LocalCredentialStore Environment Handling

variable {P : Platform} {E : Environment}

/-- The credential record of an account that a lookup by id selects. -/
def credentialOf (id : Bytes) (account : AccountRecord) : Option CredentialRecord :=
  account.credentials.find? fun item => item.credentialId == id

theorem credentialOf_eq_lookup (id : Bytes) (account : AccountRecord) :
    credentialOf id account =
      Keyed.lookup CredentialRecord.credentialId id account.credentials := by
  unfold credentialOf Keyed.lookup
  exact congrFun (congrArg _ (funext fun c => beq_eq_decide _ _)) _

/-- The record with this id of the account of `s` in store. -/
def storedCredential (P : Platform) (d : Disk) (s : WString) (id : Bytes) :
    Option CredentialRecord :=
  (accountOf s (storedAccounts P d)).bind (credentialOf id)

/-! ## One record through the changes -/

/-- The request removes credentials. -/
def Removing (request : Json) : Prop :=
  request.valueOr Json.getString (text "op") [] = .ok (text "remove_with_password") ∨
    request.valueOr Json.getString (text "op") [] = .ok (text "finish_remove")

/-- A record with this id in the account, if there is one, has a counter that is not behind
that of `c₀`.  A removal will not find a second such record. -/
structure CountedFrom (removing : Prop) (id : Bytes) (c₀ : CredentialRecord)
    (x : Option AccountRecord) : Prop where
  counted : ∀ a ∈ x, ∀ c ∈ credentialOf id a, CountedOn c₀ c
  distinct : removing → ∀ a ∈ x, DistinctIds a

/-- Only the credentials of the account matter. -/
theorem CountedFrom.congr {removing : Prop} {id : Bytes} {c₀ : CredentialRecord}
    {a b : AccountRecord} (h : CountedFrom removing id c₀ (some a))
    (hSame : b.credentials = a.credentials) : CountedFrom removing id c₀ (some b) := by
  constructor
  · rintro _ ⟨⟩ c hc
    refine h.counted a rfl c ?_
    unfold credentialOf at hc ⊢
    rwa [← hSame]
  · rintro hRemoving _ ⟨⟩
    have hDistinct := h.distinct hRemoving a rfl
    unfold DistinctIds at hDistinct ⊢
    rwa [hSame]

theorem countedFrom_none {removing : Prop} {id : Bytes} {c₀ : CredentialRecord} :
    CountedFrom removing id c₀ none :=
  ⟨fun _ ha => absurd ha nofun, fun _ _ ha => absurd ha nofun⟩

/-- What a lookup finds after the counter of a record was set. -/
theorem credentialOf_setSignCount {a : AccountRecord} {id id' : Bytes} {record : CredentialRecord}
    {counter : UInt32}
    (hRecord : a.credentials.find? (fun item => item.credentialId == id') = some record) :
    credentialOf id { a with
      credentials := setSignCount record.credentialId counter a.credentials } =
        if id = id' then some { record with signCount := counter } else credentialOf id a := by
  have hLookup : Keyed.lookup CredentialRecord.credentialId id' a.credentials = some record :=
    (credentialOf_eq_lookup id' a).symm.trans hRecord
  have hId : record.credentialId = id' := Keyed.key_of_lookup hLookup
  rw [credentialOf_eq_lookup, credentialOf_eq_lookup, setSignCount_eq_modify, hId]
  have hKeys : ∀ c : CredentialRecord, c.credentialId = id' →
      ({ c with signCount := counter } : CredentialRecord).credentialId = id' := fun _ hc => hc
  refine (Keyed.lookup_modify hKeys id a.credentials).trans ?_
  rw [hLookup, ← hId]
  rfl

theorem distinctIds_setSignCount {a : AccountRecord} (h : DistinctIds a) (id : Bytes)
    (counter : UInt32) :
    DistinctIds { a with credentials := setSignCount id counter a.credentials } := by
  unfold DistinctIds
  rw [setSignCount_eq_modify]
  exact Keyed.Distinct.modify h fun _ hc => hc

theorem Handling.MayRemove.removing {H : Handling} {sid : WString} {credentialId : Bytes}
    {m : Machine} (h : MayRemove P E H sid credentialId m) : Removing H.request := by
  cases h with
  | password hOp _ _ => exact .inl hOp
  | session hOp _ _ _ _ => exact .inr hOp

theorem Handling.MayRegister.not_removing {H : Handling} {session : Session}
    {registration : RegistrationResult} {m : Machine}
    (h : MayRegister P E H session registration m) : ¬ Removing H.request := by
  have hOp : H.request.valueOr Json.getString (text "op") [] = .ok (text "commit_registration") :=
    h.operation
  rintro (hOther | hOther)
  · rw [hOp] at hOther
    exact absurd hOther (by decide)
  · rw [hOp] at hOther
    exact absurd hOther (by decide)

/-- A request names one session. -/
theorem Handling.Entered.unique {H : Handling} {kind kind' : SessionKind} {session session' : Session}
    {m m' : Machine} (h : Entered E H kind session m) (h' : Entered E H kind' session' m') :
    session = session' := by
  obtain ⟨id, _, hId, _, hFound, _⟩ := h
  obtain ⟨id', _, hId', _, hFound', _⟩ := h'
  obtain rfl : id = id' := Except.ok.inj (hId.symm.trans hId')
  exact Option.some.inj (hFound.symm.trans hFound')

/-- A request registers one credential. -/
theorem Handling.MayRegister.unique {H : Handling} {session session' : Session}
    {registration registration' : RegistrationResult} {m m' : Machine}
    (h : MayRegister P E H session registration m)
    (h' : MayRegister P E H session' registration' m') : registration = registration' := by
  obtain rfl := h.entered.unique h'.entered
  obtain ⟨attestation, clientData, hAttestation, hClientData, hVerified⟩ := h.verified
  obtain ⟨attestation', clientData', hAttestation', hClientData', hVerified'⟩ := h'.verified
  obtain rfl : attestation = attestation' :=
    Except.ok.inj (hAttestation.symm.trans hAttestation')
  obtain rfl : clientData = clientData' := Except.ok.inj (hClientData.symm.trans hClientData')
  exact Except.ok.inj (hVerified.symm.trans hVerified')

/-- Each change moves the record on, or leaves it alone, or it registers a credential
with this id. -/
theorem AccountChange.counting {H : Handling} {Done : Prop} {n : Machine} {s : WString}
    {x y : Option AccountRecord} {removing : Prop} {id : Bytes} {c₀ : CredentialRecord}
    (h : AccountChange P E H Done n (CountedFrom removing id c₀) s x y)
    (hRemoving : removing ↔ Removing H.request) (hx : CountedFrom removing id c₀ x) :
    CountedFrom removing id c₀ y ∨ ∃ session registration,
      MayRegister P E H session registration n ∧ Done ∧ registration.credentialId = id := by
  cases h with
  | other => exact .inl hx
  | rename => exact .inl (hx.congr rfl)
  | vanish => exact .inl countedFrom_none
  | @count _ a session record value assertion front counter _ _ _ _ _ hKnown hRecord hVerify =>
      left
      constructor
      · rintro _ ⟨⟩ c hc
        rw [credentialOf_setSignCount hRecord] at hc
        by_cases hSame : id = front.credentialid
        · -- the assertion is one of this record
          rw [if_pos hSame] at hc
          obtain rfl := Option.some.inj hc
          have hBefore : CountedOn c₀ record := by
            refine hKnown.counted a rfl record ?_
            rw [hSame]
            exact hRecord
          have hMoved : CountedOn record { record with signCount := counter } :=
            ⟨rfl, FidoVerifier.le_of_verifyAssertion hVerify⟩
          exact Trans.trans hBefore hMoved
        · rw [if_neg hSame] at hc
          exact hKnown.counted a rfl c hc
      · rintro hRemoves _ ⟨⟩
        exact distinctIds_setSignCount (hKnown.distinct hRemoves a rfl) record.credentialId counter
  | @register _ session registration createdAt base hMay hDone _ hBase =>
      by_cases hNew : registration.credentialId = id
      · exact .inr ⟨session, registration, hMay, hDone, hNew⟩
      · left
        constructor
        · rintro _ ⟨⟩ c hc
          unfold credentialOf at hc
          rw [List.find?_append] at hc
          -- the lookup does not find the new record
          have hOther : List.find? (fun item => item.credentialId == id)
              [newCredential session registration createdAt] = none := by
            simpa [newCredential] using hNew
          rw [hOther, Option.or_none] at hc
          cases x with
          | none =>
              -- a new account has no other record
              rw [hBase] at hc
              cases hc
          | some a =>
              obtain rfl : base = a := hBase
              exact hx.counted base rfl c hc
        · intro hRemoves
          exact absurd (hRemoving.mp hRemoves) hMay.not_removing
  | @remove a sid credentialId hMay _ _ _ =>
      left
      -- `RemoveCredential` erases one record; with distinct ids no second one comes to light
      have hDistinct := hx.distinct (hRemoving.mpr hMay.removing) a rfl
      constructor
      · rintro _ ⟨⟩ c hc
        rw [credentialOf_eq_lookup, eraseCredential_credentials] at hc
        rw [Keyed.lookup_erase hDistinct credentialId id] at hc
        by_cases hSame : id = credentialId
        · rw [if_pos hSame] at hc
          cases hc
        · rw [if_neg hSame, ← credentialOf_eq_lookup] at hc
          exact hx.counted a rfl c hc
      · rintro _ _ ⟨⟩
        unfold DistinctIds
        rw [eraseCredential_credentials]
        exact Keyed.Distinct.erase hDistinct credentialId
  | enforce => exact .inl (hx.congr rfl)

/-! ## One record through a request -/

theorem isVaultValid_of_loadedVault {d : Disk} {v : Vault} (h : loadedVault P d = some v) :
    isVaultValid P v = true := by
  rcases Option.or_eq_some_iff.mp h with hPrimary | ⟨-, hBackup⟩
  · obtain ⟨c, -, hc⟩ := vaultIn_eq_some.mp hPrimary
    exact isVaultValid_of_vaultOf hc
  · obtain ⟨c, -, hc⟩ := vaultIn_eq_some.mp hBackup
    exact isVaultValid_of_vaultOf hc

/-- No account in store has two records with one id. -/
theorem distinctIds_of_stored {d : Disk} {a : AccountRecord} (ha : a ∈ storedAccounts P d) :
    DistinctIds a := by
  cases hLoaded : loadedVault P d with
  | none =>
      rw [storedAccounts_of_none hLoaded] at ha
      cases ha
  | some v =>
      rw [storedAccounts_of_loadedVault hLoaded] at ha
      exact ((isVaultValid_iff.mp (isVaultValid_of_loadedVault hLoaded)).accounts a ha).ids_nodup

theorem mem_of_accountOf {s : WString} {A : List AccountRecord} {a : AccountRecord}
    (h : accountOf s A = some a) : a ∈ A := by
  rw [accountOf_eq_lookup] at h
  exact Keyed.mem_of_lookup h

/-- A record in store, before a request touched it. -/
theorem countedFrom_of_stored {d : Disk} {s : WString} {id : Bytes} {c₀ : CredentialRecord}
    (hStored : ∀ c, storedCredential P d s id = some c → CountedOn c₀ c) (removing : Prop) :
    CountedFrom removing id c₀ (accountOf s (storedAccounts P d)) := by
  constructor
  · exact fun a ha c hc => hStored c (Option.bind_eq_some_iff.mpr ⟨a, ha, hc⟩)
  · exact fun _ a ha => distinctIds_of_stored (mem_of_accountOf ha)

/-- What is found of the record afterwards. -/
theorem CountedFrom.countedOn {removing : Prop} {id : Bytes} {c₀ c : CredentialRecord}
    {s : WString} {d : Disk}
    (h : CountedFrom removing id c₀ (accountOf s (storedAccounts P d)))
    (hStored : storedCredential P d s id = some c) : CountedOn c₀ c := by
  obtain ⟨a, ha, hc⟩ := Option.bind_eq_some_iff.mp hStored
  exact h.counted a ha c hc

section Requests

variable (hT : P.Transcodes) (hProtects : P.Protects) (hParses : P.ParsesDumps)
  (hReads : ReadsSucceed E)
include hT hProtects hParses hReads

variable {H : Handling} {Done : Prop} {s : WString} {id : Bytes} {c₀ : CredentialRecord}

/-- A part of a request that registers no credential with this id keeps the counter. -/
theorem counting_moved {m n : Machine}
    (hMoved : (intactReads hT hProtects hParses hReads).Moved H Done m n)
    (hOther : ∀ session registration, MayRegister P E H session registration n → Done →
      registration.credentialId ≠ id)
    (hBefore : TableWith s (CountedFrom (Removing H.request) id c₀) (storedAccounts P m.disk)) :
    TableWith s (CountedFrom (Removing H.request) id c₀) (storedAccounts P n.disk) := by
  have hKeeps : (intactReads hT hProtects hParses hReads).Keeps H Done n
      (TableWith s (CountedFrom (Removing H.request) id c₀)) False := by
    refine Regime.keeps_account (fun _ h => h.congr rfl) (fun _ _ h hx => ?_) fun _ h => h.elim
    refine (h.counting Iff.rfl hx).imp_right ?_
    rintro ⟨session, registration, hMay, hDone, hId⟩
    exact hOther session registration hMay hDone hId
  have hAfter := hMoved.keeps (Std.Refl.refl n) trivial hKeeps (by
    rintro A rfl
    exact hBefore)
  exact (hAfter.resolve_right not_false) _ rfl

/-- The steps before the transaction of a request register nothing. -/
theorem counting_prepares {m : Machine}
    (hSteps : Relation.ReflTransGen (Prepares P E H) H.before.machine m)
    (hBefore : TableWith s (CountedFrom (Removing H.request) id c₀)
      (storedAccounts P H.before.machine.disk)) :
    TableWith s (CountedFrom (Removing H.request) id c₀) (storedAccounts P m.disk) := by
  induction hSteps with
  | refl => exact hBefore
  | @tail k l hFirst hStep ih =>
      have hMoved : (intactReads hT hProtects hParses hReads).Moved H False k l :=
        Regime.moved_of_prepares (later_of_prepares hFirst).tick_le hStep
      exact counting_moved hT hProtects hParses hReads hMoved (fun _ _ _ h => h.elim) ih

/-- Nor does a removal at the end of it. -/
theorem counting_removeCredential {sid : WString} {credentialId : Bytes} {m : Machine}
    (hMay : MayRemove P E H sid credentialId m)
    (hBefore : TableWith s (CountedFrom (Removing H.request) id c₀) (storedAccounts P m.disk)) :
    TableWith s (CountedFrom (Removing H.request) id c₀)
      (storedAccounts P (removeCredential P E sid credentialId m).2.disk) := by
  have hMoved : (intactReads hT hProtects hParses hReads).Moved H True m
      (removeCredential P E sid credentialId m).2 :=
    Regime.moved_removeCredential hMay fun _ => trivial
  exact counting_moved hT hProtects hParses hReads hMoved
    (fun _ _ hRegister _ => absurd hMay.removing hRegister.not_removing) hBefore

/-- When a request has taken its session, the accounts in store are those that its refresh
left. -/
theorem storedAccounts_took {kind : SessionKind} {session : Session} {b : Broker}
    (h : Took P E H kind session b) :
    storedAccounts P b.machine.disk =
      storedAccounts P (refreshLocalAccounts P E H.before.machine).2.disk := by
  obtain ⟨c, ⟨m, n, v, hRefresh, hLoad, rfl⟩, hEnter⟩ := h
  obtain ⟨_, _, _, _, _, rfl⟩ := enterSession_returned hEnter
  rw [hRefresh]
  exact ((storedAccounts_loadOrCreate hT hProtects hParses hReads m).of_eq hLoad).1

/-- A credential that is in store is not registered again. -/
theorem storedAccounts_storeRegistration {session : Session} {registration : RegistrationResult}
    {m : Machine}
    (hOld : (storedCredential P m.disk s registration.credentialId).isSome = true) :
    Meets (storeRegistration P E session registration) m fun _ n =>
      storedAccounts P n.disk = storedAccounts P m.disk := by
  unfold storeRegistration
  rw [meets_bind]
  refine (storedAccounts_loadOrCreate hT hProtects hParses hReads m).mono ?_
  rintro ((e | v) | what | _) n ⟨hSame, hVault⟩
  · exact hSame
  · obtain ⟨c, hc⟩ := Option.isSome_iff_exists.mp hOld
    obtain ⟨a, ha, hRecord⟩ := Option.bind_eq_some_iff.mp hc
    rw [hVault v rfl] at ha
    rw [credentialOf_eq_lookup] at hRecord
    have hRegistered : isRegistered registration.credentialId v = true := by
      refine List.any_eq_true.mpr ⟨a, mem_of_accountOf ha, List.any_eq_true.mpr ⟨c, ?_, ?_⟩⟩
      · exact Keyed.mem_of_lookup hRecord
      · exact beq_iff_eq.mpr (Keyed.key_of_lookup hRecord)
    dsimp only
    rw [if_pos hRegistered]
    exact hSame
  · exact hSame
  · exact hSame

/-- The end of a request keeps the counter, if a registration finds the record in store. -/
theorem counting_concluded {m n : Machine} {o : Outcome Bytes Json} (h : Concluded P E H m o n)
    (hFinds : ∀ session b, Took P E H .registration session b →
      (storedCredential P b.machine.disk s id).isSome = true)
    (hBefore : TableWith s (CountedFrom (Removing H.request) id c₀) (storedAccounts P m.disk)) :
    TableWith s (CountedFrom (Removing H.request) id c₀) (storedAccounts P n.disk) := by
  cases h with
  | without _ => exact hBefore
  | verify hAt _ =>
      have hMoved : (intactReads hT hProtects hParses hReads).Moved H False _ _ :=
        Regime.moved_verifySessionAssertion (.inl hAt.enters) hAt.assertion
      exact counting_moved hT hProtects hParses hReads hMoved (fun _ _ _ h => h.elim) hBefore
  | @register _ session registration b hTook hMay _ =>
      by_cases hId : registration.credentialId = id
      · -- it is refused
        subst hId
        have hSame : storedAccounts P (storeRegistration P E session registration b.machine).2.disk =
            storedAccounts P b.machine.disk :=
          storedAccounts_storeRegistration hT hProtects hParses hReads (hFinds session b hTook)
        rw [hSame]
        exact hBefore
      · have hMoved : (intactReads hT hProtects hParses hReads).Moved H True b.machine
            (storeRegistration P E session registration b.machine).2 :=
          Regime.moved_storeRegistration hMay fun _ => trivial
        refine counting_moved hT hProtects hParses hReads hMoved (fun _ _ hOther _ => ?_) hBefore
        rwa [← hMay.unique hOther]
  | remove hMay _ => exact counting_removeCredential hT hProtects hParses hReads hMay hBefore
  | @enforce _ _ sid enabled hMay _ =>
      have hMoved : (intactReads hT hProtects hParses hReads).Moved H True m
          (setEnforced P E sid enabled m).2 :=
        Regime.moved_setEnforced hMay fun _ => trivial
      refine counting_moved hT hProtects hParses hReads hMoved (fun _ _ hOther _ => ?_) hBefore
      exact absurd (Except.ok.inj (hMay.operation.symm.trans hOther.operation)) (by decide)

end Requests

/-! ## An accepted assertion -/

/-- What an accepted assertion found in store. -/
theorem record_of_verified (hReads : ReadsSucceed E) {session : Session} {value : Json}
    {m n : Machine} (h : verifySessionAssertion P E session value m = (.returned (.ok ()), n)) :
    ∃ assertion front record counter, assertionFromJson value = .ok assertion ∧
      assertion.assertions = [front] ∧
      storedCredential P m.disk session.targetSid front.credentialid = some record ∧
      FidoVerifier.verifyAssertion P record session.challenge session.rpId session.origin
        assertion = .ok counter := by
  obtain ⟨account, k, assertion, front, record, counter, hFind, hAssertion, hOne, hRecord, hVerify,
    _⟩ := verifySessionAssertion_ok h
  obtain ⟨v, hLoad, hAccount⟩ := load_of_findAccount hFind
  refine ⟨assertion, front, record, counter, hAssertion, hOne, ?_, hVerify⟩
  have hLoaded : loadedVault P m.disk = some v :=
    (load_returned_iff hReads).mp (congrArg Prod.fst hLoad)
  unfold storedCredential
  rw [storedAccounts_of_loadedVault hLoaded, hAccount]
  exact hRecord

/-- What an accepted assertion leaves in store. -/
theorem stored_of_verified (hT : P.Transcodes) (hProtects : P.Protects) (hParses : P.ParsesDumps)
    (hReads : ReadsSucceed E) {session : Session} {value : Json} {m n : Machine}
    (h : verifySessionAssertion P E session value m = (.returned (.ok ()), n))
    (hIntact : IntactReadable P n.disk) {assertion : FIDOSignResponse} {front : FIDOAssertionData}
    (hAssertion : assertionFromJson value = .ok assertion)
    (hOne : assertion.assertions = [front]) :
    ∃ record, storedCredential P n.disk session.targetSid front.credentialid = some record ∧
      record.signCount =
        FidoVerifier.counterOf (Convert.base64URLDecode front.authenticatordata) := by
  obtain ⟨account, k, assertion', front', record, counter, hFind, hAssertion', hOne', hRecord,
    hVerify, hUpsert⟩ := verifySessionAssertion_ok h
  obtain rfl : assertion = assertion' := Except.ok.inj (hAssertion.symm.trans hAssertion')
  obtain rfl : front = front' := (List.cons.inj (hOne.symm.trans hOne')).1
  obtain ⟨v, hLoad, hAccount⟩ := load_of_findAccount hFind
  have hLoaded : loadedVault P m.disk = some v :=
    (load_returned_iff hReads).mp (congrArg Prod.fst hLoad)
  obtain ⟨hDisk, _⟩ := (meets_load_of_readsSucceed hReads m).of_eq hLoad
  -- the vault is loaded again, and is the same
  unfold upsertAccount at hUpsert
  obtain ⟨r, l, hLoad', hSaved⟩ := bind_returned_iff.mp hUpsert
  have hLoaded' : loadedVault P k.disk = some v := by
    rw [hDisk]
    exact hLoaded
  obtain ⟨hSame, hUnseen⟩ := (loadOrCreate_of_stored hReads hLoaded').of_eq hLoad'
  obtain rfl := Outcome.returned.inj hSame
  dsimp only at hSaved
  have hHere : loadedVault P l.disk = some v := by
    rw [hUnseen.disk]
    exact hLoaded'
  -- saving turns the SIDs to UTF-8 and back, which leaves those that were loaded
  have hAdvances := advancesOnly_count hAccount hRecord hVerify
  have hText := hAdvances.wellFormedText (P := P) (wellFormedText_of_loadedVault hT hLoaded)
  obtain ⟨hValid, hStored, _⟩ := stored_of_save hT hProtects hParses hReads hHere
    (fun a ha => (hText a ha).1) hSaved hIntact
  rw [transcodedVault_of_wellFormed hT hValid hText] at hStored
  refine ⟨{ record with signCount := counter }, ?_, ?_⟩
  · unfold storedCredential
    rw [storedAccounts_of_loadedVault hStored, accountOf_upsert, if_pos (sid_of_accountOf hAccount)]
    exact (credentialOf_setSignCount hRecord).trans (if_pos rfl)
  · obtain ⟨assertion', publicKey, hAccepts⟩ := FidoVerifier.verifyAssertion_iff.mp hVerify
    obtain rfl : front = assertion' := (List.cons.inj (hOne.symm.trans hAccepts.one)).1
    exact hAccepts.counter

/-- The event presents the authenticator data `authData` of the credential `id` for the
account of `s`, in whatever session, and they are accepted; the store is `n` then. -/
def Accepted (P : Platform) (E : Environment) (b : Broker) (e : Event) (s : WString)
    (id authData : Bytes) (n : Machine) : Prop :=
  ∃ pipe input caller request kind session value b₁ assertion front, e = .request pipe input ∧
    openRequest P pipe input = .ok (caller, request) ∧
    AtVerification P E ⟨b, caller, request⟩ kind session value b₁ ∧
    verifySessionAssertion P E session value b₁.machine = (.returned (.ok ()), n) ∧
    isSameSid session.targetSid s = true ∧
    assertionFromJson value = .ok assertion ∧ assertion.assertions = [front] ∧
    front.credentialid = id ∧ Convert.base64URLDecode front.authenticatordata = authData

/-- If the event is a request that refreshes the store, the record is there afterwards. -/
def Finds (P : Platform) (E : Environment) (b : Broker) (e : Event) (s : WString) (id : Bytes) :
    Prop :=
  ∀ pipe input caller request, e = .request pipe input →
    openRequest P pipe input = .ok (caller, request) →
    (storedCredential P (refreshLocalAccounts P E b.machine).2.disk s id).isSome = true

/-- The record stays in the vault while the events of `mid` come after the run `es`: no
event finds that it was taken out before. -/
def Stays (P : Platform) (E : Environment) (b₀ : Broker) (es mid : List Event) (s : WString)
    (id : Bytes) : Prop :=
  ∀ pre e post, mid = pre ++ e :: post → Finds P E (run P E b₀ (es ++ pre)) e s id

/-- Whatever is stored under the id, its counter is not behind that of `c₀`. -/
def CountsFrom (P : Platform) (d : Disk) (s : WString) (id : Bytes) (c₀ : CredentialRecord) : Prop :=
  ∀ c, storedCredential P d s id = some c → CountedOn c₀ c

theorem CountsFrom.of_stored {d : Disk} {s : WString} {id : Bytes} {c : CredentialRecord}
    (h : storedCredential P d s id = some c) : CountsFrom P d s id c := by
  intro c' hc'
  obtain rfl := Option.some.inj (h.symm.trans hc')
  exact Std.Refl.refl c

theorem storedCredential_congr {d : Disk} {s s' : WString} {id : Bytes}
    (hSame : isSameSid s s' = true) :
    storedCredential P d s id = storedCredential P d s' id := by
  unfold storedCredential
  rw [accountOf_congr hSame]

section Runs

variable (hT : P.Transcodes) (hProtects : P.Protects) (hParses : P.ParsesDumps)
  (hReads : ReadsSucceed E)
include hT hProtects hParses hReads

/-! ## One record through a run -/

/-- An event that finds the record in store moves its counter on, or leaves it. -/
theorem countsFrom_step {b : Broker} (hTable : DistinctSids (storedAccounts P b.machine.disk))
    {e : Event} (he : e.Internal) {s : WString} {id : Bytes} {c₀ : CredentialRecord}
    (hFinds : Finds P E b e s id) (hBefore : CountsFrom P b.machine.disk s id c₀) :
    CountsFrom P (step P E b e).machine.disk s id c₀ := by
  cases e with
  | restart =>
      have hMoved : (intactReads hT hProtects hParses hReads).Moved (Handling.startUp b) False
          b.machine (refreshLocalAccounts P E b.machine).2 :=
        Regime.moved_refreshLocalAccounts (le_refl _)
      have hAfter := counting_moved hT hProtects hParses hReads hMoved (fun _ _ _ h => h.elim)
        ⟨hTable, countedFrom_of_stored hBefore _⟩
      exact fun c hc => hAfter.account.countedOn hc
  | tamper content => exact absurd rfl (he content)
  | request pipe input =>
      cases hOpen : openRequest P pipe input with
      | error what =>
          show CountsFrom P (serve P E pipe input b).2.machine.disk s id c₀
          rw [(serve_refused hOpen).1]
          exact hBefore
      | ok opened =>
          obtain ⟨caller, request⟩ := opened
          have hConducted : Conducted P E ⟨b, caller, request⟩ _ _ :=
            handle_conducts (P := P) (E := E) ⟨b, caller, request⟩
          obtain ⟨m, hPrepared, hConcluded⟩ := hConducted.store
          have hHere := counting_prepares hT hProtects hParses hReads hPrepared
            ⟨hTable, countedFrom_of_stored hBefore _⟩
          rw [step_machine hOpen]
          intro c hc
          refine (counting_concluded hT hProtects hParses hReads hConcluded
            (fun session b' hTook => ?_) hHere).account.countedOn hc
          unfold storedCredential
          rw [storedAccounts_took hT hProtects hParses hReads hTook]
          exact hFinds pipe input caller request rfl hOpen

variable {b₀ : Broker} (hDistinct : DistinctSids (storedAccounts P b₀.machine.disk))

include hDistinct in
/-- So does any number of events. -/
theorem countsFrom_run {es mid : List Event} (hInternal : ∀ e ∈ es ++ mid, e.Internal)
    {s : WString} {id : Bytes} {c₀ : CredentialRecord} (hStays : Stays P E b₀ es mid s id)
    (hBefore : CountsFrom P (run P E b₀ es).machine.disk s id c₀) :
    CountsFrom P (run P E b₀ (es ++ mid)).machine.disk s id c₀ := by
  induction mid using List.reverseRecOn with
  | nil => rwa [List.append_nil]
  | append_singleton mid e ih =>
      rw [← List.append_assoc] at hInternal ⊢
      have hEvents : ∀ e' ∈ es ++ mid, e'.Internal :=
        fun e' he' => hInternal e' (List.mem_append_left _ he')
      have hHere := ih hEvents fun pre e' post hSplit =>
        hStays pre e' (post ++ [e]) (by rw [hSplit]; simp)
      rw [run_concat]
      exact countsFrom_step hT hProtects hParses hReads
        (distinct_run hT hProtects hParses hReads hDistinct hEvents) (hInternal e (by simp))
        (hStays mid e [] rfl) hHere

/-! ## The records that assertions are accepted for -/

variable {b : Broker} {e : Event} {s : WString} {id authData : Bytes} {n : Machine}
  {c₀ : CredentialRecord}

/-- An accepted assertion moves a counter that counts. -/
theorem Accepted.advances (hTable : DistinctSids (storedAccounts P b.machine.disk))
    (hBefore : CountsFrom P b.machine.disk s id c₀) (h : Accepted P E b e s id authData n) :
    c₀.signCount ≤ FidoVerifier.counterOf authData ∧
      (c₀.signCount ≠ 0 → c₀.signCount < FidoVerifier.counterOf authData) := by
  obtain ⟨pipe, input, caller, request, kind, session, value, b₁, assertion, front, rfl, _, hAt,
    hVerified, hSame, hAssertion, hOne, rfl, rfl⟩ := h
  obtain ⟨assertion', front', record, counter, hAssertion', hOne', hRecord, hVerify⟩ :=
    record_of_verified hReads hVerified
  obtain rfl : assertion = assertion' := Except.ok.inj (hAssertion.symm.trans hAssertion')
  obtain rfl : front = front' := (List.cons.inj (hOne.symm.trans hOne')).1
  have hKept := counting_prepares hT hProtects hParses hReads hAt.prepared
    ⟨hTable, countedFrom_of_stored hBefore _⟩
  rw [storedCredential_congr hSame] at hRecord
  have hCounted : CountedOn c₀ record := hKept.account.countedOn hRecord
  obtain ⟨accepted, publicKey, hAccepts⟩ := FidoVerifier.verifyAssertion_iff.mp hVerify
  obtain rfl : front = accepted := (List.cons.inj (hOne.symm.trans hAccepts.one)).1
  have hMoved := FidoVerifier.le_of_verifyAssertion hVerify
  rw [hAccepts.counter] at hMoved
  refine ⟨UInt32.le_trans hCounted.counter hMoved, fun hCounts => ?_⟩
  have hStill : record.signCount ≠ 0 := by
    intro hZero
    have hLess := hCounted.counter
    rw [hZero] at hLess
    exact hCounts (UInt32.le_antisymm hLess UInt32.zero_le)
  have hGrows := hAccepts.advances hStill
  rw [hAccepts.counter] at hGrows
  exact UInt32.lt_of_le_of_lt hCounted.counter hGrows

/-- The counter of an accepted assertion is stored. -/
theorem Accepted.stored (h : Accepted P E b e s id authData n) (hIntact : IntactReadable P n.disk) :
    ∃ c, storedCredential P n.disk s id = some c ∧
      c.signCount = FidoVerifier.counterOf authData := by
  obtain ⟨pipe, input, caller, request, kind, session, value, b₁, assertion, front, rfl, _, _,
    hVerified, hSame, hAssertion, hOne, rfl, rfl⟩ := h
  rw [← storedCredential_congr hSame]
  exact stored_of_verified hT hProtects hParses hReads hVerified hIntact hAssertion hOne

/-- The rest of the request does not take it back. -/
theorem Accepted.countsFrom (hTable : DistinctSids (storedAccounts P b.machine.disk))
    (h : Accepted P E b e s id authData n) (hStored : CountsFrom P n.disk s id c₀) :
    CountsFrom P (step P E b e).machine.disk s id c₀ := by
  obtain ⟨pipe, input, caller, request, kind, session, value, b₁, assertion, front, rfl, hOpen, hAt,
    hVerified, -, -⟩ := h
  rw [step_machine hOpen]
  obtain ⟨op, hVerifying, hField⟩ := hAt.operation
  cases hVerifying with
  | auth =>
      rw [hAt.handle_auth hVerified]
      exact hStored
  | remove =>
      -- the SIDs are distinct at the verification too
      have hKeeps : (intactReads hT hProtects hParses hReads).Keeps ⟨b, caller, request⟩ True n
          (TableWith s fun _ => True) False :=
        Regime.keeps_account (fun _ _ => trivial) (fun _ _ _ _ => .inl trivial) fun _ h => h.elim
      have hThere := Regime.keeps_prepares (hAt.prepared_removal hVerified) (Std.Refl.refl n) trivial hKeeps
        (by
          rintro A rfl
          exact ⟨hTable, trivial⟩)
      have hDistinct := ((hThere.resolve_right not_false) _ rfl).distinct
      have hMay : MayRemove P E ⟨b, caller, request⟩ session.targetSid
          session.credentialToRemove n :=
        .session hField (hAt.enters.mono (later_of_verified hVerified)) ⟨value, b₁, n, hAt, hVerified, Std.Refl.refl n⟩
          rfl rfl
      rw [hAt.handle_remove hVerified]
      intro c hc
      exact (counting_removeCredential hT hProtects hParses hReads hMay
        ⟨hDistinct, countedFrom_of_stored hStored _⟩).account.countedOn hc

end Runs

/-! ## Counters only move forward -/

/-- A request that presents an assertion and is answered with `ok` had it accepted; for a
login, nothing comes after. -/
theorem accepted_of_ok {b : Broker} {pipe : PipeClient} {input output op : Bytes} {caller : Caller}
    {request : Json} {kind : SessionKind} (hOp : Verifying op kind)
    (hOpen : openRequest P pipe input = .ok (caller, request))
    (hField : request.valueOr Json.getString (text "op") [] = .ok op)
    (hOk : (serve P E pipe input b).1 = some (output, true)) :
    ∃ s id authData n, Accepted P E b (.request pipe input) s id authData n ∧
      (kind = .authentication → n = (step P E b (.request pipe input)).machine) := by
  obtain ⟨j, b', hHandle, _, hAfter⟩ := handle_of_serve_ok hOpen hOk
  obtain ⟨session, value, b₁, n, hAt, hVerified⟩ := atVerification_of_returned hOp hField hHandle
  obtain ⟨_, _, assertion, front, _, _, _, hAssertion, hOne, _⟩ := verifySessionAssertion_ok hVerified
  refine ⟨session.targetSid, front.credentialid, _, n, ⟨pipe, input, caller, request, kind, session,
    value, b₁, assertion, front, rfl, hOpen, hAt, hVerified, wcsicmpEq_refl _, hAssertion, hOne, rfl,
    rfl⟩, ?_⟩
  rintro rfl
  rw [hAt.handle_auth hVerified] at hHandle
  show n = (serve P E pipe input b).2.machine
  rw [hAfter, ← (Prod.mk.inj hHandle).2]
  rfl

/-- In every run in which only the Broker writes the vault files, and intact ones can be
read: as long as a record stays in the vault its counter does not go back; a `finish_auth`
answered with `ok` has stored the counter of the authenticator data it presented, which is
larger than the counter before unless that was zero; and what `finish_auth` and
`finish_remove` accept later for the same record has a larger counter, once the record has
one at all. -/
theorem counters_forward (hT : P.Transcodes) (hProtects : P.Protects) (hParses : P.ParsesDumps)
    (hReads : ReadsSucceed E) {b₀ : Broker}
    (hDistinct : DistinctSids (storedAccounts P b₀.machine.disk)) {es : List Event}
    (hInternal : ∀ e ∈ es, e.Internal)
    (hIntact : ∀ pre e post s id authData n, es = pre ++ e :: post →
      Accepted P E (run P E b₀ pre) e s id authData n → IntactReadable P n.disk) :
    (∀ pre mid post s id c c', es = pre ++ mid ++ post → Stays P E b₀ pre mid s id →
      storedCredential P (run P E b₀ pre).machine.disk s id = some c →
      storedCredential P (run P E b₀ (pre ++ mid)).machine.disk s id = some c' →
        c.signCount ≤ c'.signCount) ∧
    (∀ pre post pipe input output caller request, es = pre ++ .request pipe input :: post →
      openRequest P pipe input = .ok (caller, request) →
      request.valueOr Json.getString (text "op") [] = .ok (text "finish_auth") →
      (serve P E pipe input (run P E b₀ pre)).1 = some (output, true) →
        ∃ s id authData c, Accepted P E (run P E b₀ pre) (.request pipe input) s id authData
            (run P E b₀ (pre ++ [.request pipe input])).machine ∧
          storedCredential P (run P E b₀ (pre ++ [.request pipe input])).machine.disk s id =
            some c ∧
          c.signCount = FidoVerifier.counterOf authData ∧
          ∀ c₀, storedCredential P (run P E b₀ pre).machine.disk s id = some c₀ →
            c₀.signCount ≠ 0 → c₀.signCount < c.signCount) ∧
    (∀ pre post pipe input output caller request, es = pre ++ .request pipe input :: post →
      openRequest P pipe input = .ok (caller, request) →
      request.valueOr Json.getString (text "op") [] = .ok (text "finish_remove") →
      (serve P E pipe input (run P E b₀ pre)).1 = some (output, true) →
        ∃ s id authData n,
          Accepted P E (run P E b₀ pre) (.request pipe input) s id authData n) ∧
    (∀ pre e mid e' post s id authData authData' n n', es = pre ++ e :: mid ++ e' :: post →
      Stays P E b₀ (pre ++ [e]) mid s id → Accepted P E (run P E b₀ pre) e s id authData n →
      Accepted P E (run P E b₀ (pre ++ e :: mid)) e' s id authData' n' →
      (FidoVerifier.counterOf authData ≠ 0 ∨
        ∃ c, storedCredential P (run P E b₀ (pre ++ e :: mid)).machine.disk s id = some c ∧
          c.signCount ≠ 0) →
        FidoVerifier.counterOf authData < FidoVerifier.counterOf authData') := by
  refine ⟨?_, ?_, ?_, ?_⟩
  · rintro pre mid post s id c c' rfl hStays hc hc'
    have hEvents : ∀ e ∈ pre ++ mid, e.Internal := fun e he => hInternal e (List.mem_append_left _ he)
    have hSince := countsFrom_run hT hProtects hParses hReads hDistinct hEvents hStays
      (CountsFrom.of_stored hc)
    exact (hSince c' hc').counter
  · rintro pre post pipe input output caller request rfl hOpen hField hOk
    obtain ⟨s, id, authData, n, hAccepted, hLast⟩ := accepted_of_ok .auth hOpen hField hOk
    have hEvents : ∀ e ∈ pre, e.Internal := fun e he => hInternal e (List.mem_append_left _ he)
    have hTable := distinct_run hT hProtects hParses hReads hDistinct hEvents
    -- the verification is the last thing the request does
    have hEnd : n = (run P E b₀ (pre ++ [.request pipe input])).machine := by
      rw [run_concat]
      exact hLast rfl
    obtain ⟨c, hc, hCounter⟩ := hAccepted.stored hT hProtects hParses hReads
      (hIntact pre _ post s id authData n rfl hAccepted)
    rw [hEnd] at hc hAccepted
    refine ⟨s, id, authData, c, hAccepted, hc, hCounter, fun c₀ hc₀ hCounts => ?_⟩
    rw [hCounter]
    exact (hAccepted.advances hT hProtects hParses hReads hTable (CountsFrom.of_stored hc₀)).2 hCounts
  · rintro pre post pipe input output caller request rfl hOpen hField hOk
    obtain ⟨s, id, authData, n, hAccepted, _⟩ := accepted_of_ok .remove hOpen hField hOk
    exact ⟨s, id, authData, n, hAccepted⟩
  · rintro pre e mid e' post s id authData authData' n n' rfl hStays hFirst hSecond hCounts
    obtain ⟨c, hc, hCounter⟩ := hFirst.stored hT hProtects hParses hReads
      (hIntact pre e (mid ++ e' :: post) s id authData n (by simp) hFirst)
    have hEvents : ∀ f ∈ pre ++ e :: mid, f.Internal :=
      fun f hf => hInternal f (List.mem_append_left _ hf)
    have hTable := distinct_run hT hProtects hParses hReads hDistinct
      fun f hf => hEvents f (List.mem_append_left _ hf)
    have hTable' := distinct_run hT hProtects hParses hReads hDistinct hEvents
    -- the counter that the first one stored, up to the second one
    have hAfter : CountsFrom P (run P E b₀ (pre ++ [e])).machine.disk s id c := by
      rw [run_concat]
      exact hFirst.countsFrom hT hProtects hParses hReads hTable (CountsFrom.of_stored hc)
    have hLast : CountsFrom P (run P E b₀ (pre ++ e :: mid)).machine.disk s id c := by
      have hSplit : pre ++ e :: mid = pre ++ [e] ++ mid := by simp
      rw [hSplit] at hEvents ⊢
      exact countsFrom_run hT hProtects hParses hReads hDistinct hEvents hStays hAfter
    obtain ⟨hLe, hLess⟩ := hSecond.advances hT hProtects hParses hReads hTable' hLast
    rw [hCounter] at hLe hLess
    rcases hCounts with hCounts | ⟨c', hc', hCounts⟩
    · exact hLess hCounts
    · by_cases hZero : FidoVerifier.counterOf authData = 0
      · -- then the counter was moved on in between
        rw [hZero]
        have hMoved := (hSecond.advances hT hProtects hParses hReads hTable'
          (CountsFrom.of_stored hc')).2 hCounts
        exact UInt32.lt_of_le_of_lt UInt32.zero_le hMoved
      · exact hLess hZero

section Example

open Reference

/-- `alice` begins a login. -/
def begins : List Event := [.request alicePipe beginText]

theorem finishes_login :
    (serve keyPlatform calm alicePipe finishText (run keyPlatform calm keyBroker begins)).1 =
        some (text "\x7b\"ok\":true\x7d", true) ∧
      ((serve keyPlatform calm alicePipe finishText
        (run keyPlatform calm keyBroker begins)).2.machine.disk .primary).all
          (fun content => content.length ≤ maximumFileBytes) = true := by
  decide +kernel

theorem beginText_operation :
    (Json.parse beginText).isSome = true ∧
      (parsed beginText).valueOr Json.getString (text "op") [] = .ok (text "begin_auth") := by
  decide +kernel

/-- Beginning a login presents no assertion. -/
theorem not_accepted_begin {b : Broker} {s : WString} {id authData : Bytes} {n : Machine} :
    ¬ Accepted keyPlatform calm b (.request alicePipe beginText) s id authData n := by
  rintro ⟨pipe, input, caller, request, kind, session, value, b₁, assertion, front, hEvent, hOpen,
    hAt, -⟩
  cases hEvent
  obtain ⟨op, hOp, hField⟩ := hAt.operation
  have hParse := openRequest_parses hOpen
  rw [show keyPlatform.parse beginText = .ok (parsed beginText) from
    parse_eq_parsed beginText_operation.1] at hParse
  obtain rfl := Except.ok.inj hParse
  dsimp only [operation] at hField
  rw [beginText_operation.2] at hField
  cases hOp <;> exact absurd hField (by decide)

/-- The vault that the login leaves can be read. -/
theorem intact_accepted {s : WString} {id authData : Bytes} {n : Machine}
    (h : Accepted keyPlatform calm (run keyPlatform calm keyBroker begins)
      (.request alicePipe finishText) s id authData n) : IntactReadable keyPlatform n.disk := by
  obtain ⟨pipe, input, caller, request, kind, session, value, b₁, assertion, front, hEvent, hOpen,
    hAt, hVerified, -⟩ := h
  cases hEvent
  have hParse := openRequest_parses hOpen
  rw [openRequest_parses openRequest_finishText] at hParse
  obtain rfl := Except.ok.inj hParse
  obtain ⟨op, hOp, hField⟩ := hAt.operation
  dsimp only [operation] at hField
  rw [finishText_fields.2.2.1] at hField
  cases hOp with
  | remove => exact absurd hField (by decide)
  | auth =>
      have hMachine := (serve_handled hOpen (hAt.handle_auth hVerified)).1
      intro v tick content _ hPrimary
      have hShort := finishes_login.2
      rw [hMachine, show (b₁.setMachine n).machine.disk .primary = some content from hPrimary] at hShort
      simpa using hShort

/-- The login of `alice` stores the counter 1. -/
theorem counters_forward_example :
    ∃ s id authData c, Accepted keyPlatform calm (run keyPlatform calm keyBroker begins)
        (.request alicePipe finishText) s id authData
        (run keyPlatform calm keyBroker (begins ++ [.request alicePipe finishText])).machine ∧
      storedCredential keyPlatform (run keyPlatform calm keyBroker
        (begins ++ [.request alicePipe finishText])).machine.disk s id = some c ∧
      c.signCount = FidoVerifier.counterOf authData ∧
      ∀ c₀, storedCredential keyPlatform (run keyPlatform calm keyBroker begins).machine.disk s id =
        some c₀ → c₀.signCount ≠ 0 → c₀.signCount < c.signCount := by
  have hInternal : ∀ e ∈ begins ++ [.request alicePipe finishText], e.Internal := by
    intro e he content hTamper
    subst hTamper
    simp [begins] at he
  refine (counters_forward (P := keyPlatform) (E := calm) (transcodes _) (protects _) (parsesDumps _)
    (fun _ _ => rfl) distinct_keyBroker hInternal ?_).2.1 begins [] alicePipe
    finishText _ _ _ rfl openRequest_finishText finishText_fields.2.2.1 finishes_login.1
  · intro pre e post s id authData n hSplit hAccepted
    rcases pre with _ | ⟨e₁, _ | ⟨e₂, pre⟩⟩
    · cases hSplit
      exact absurd hAccepted not_accepted_begin
    · cases hSplit
      exact intact_accepted hAccepted
    · simp [begins] at hSplit

end Example

end BrokerService
end WindowsFidoLogon
