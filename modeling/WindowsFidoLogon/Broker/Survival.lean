import WindowsFidoLogon.Broker.Counters
import WindowsFidoLogon.Broker.Tables

/-!
# What became of a change that was acknowledged

A request that is answered with `ok` has changed the vault.  As long as the loads that
fall back to the backup find the change there, it is in every vault that later requests
load and in the one they leave, until a request that is answered with `ok` takes it back
or the Windows account is deleted.

Main definitions:

* `VaultChange` — what a request changes in the account of a SID, and `VaultChange.Present`;
* `Acknowledges` — the answer of a request acknowledges the change;
* `Undoes` — a later event takes it back.

The main result is `acknowledged_changes_last`.
-/

namespace WindowsFidoLogon
namespace BrokerService

open Program Text LocalAccount LocalCredentialStore Environment Handling

variable {P : Platform} {E : Environment}

/-! ## Changes of an account -/

/-- What a request changes in the account of a SID. -/
inductive VaultChange
  | registered (credential : CredentialRecord)
  | removed (credentialId : Bytes)
  | enforced (enabled : Bool)
  | counted (credentialId : Bytes) (counter : UInt32)

/-- The change is there in the account; a counter may have moved on. -/
def VaultChange.Present : VaultChange → Option AccountRecord → Prop
  | .registered credential, x => Has x credential
  | .removed id, x => ∀ a ∈ x, ∀ c ∈ a.credentials, c.credentialId ≠ id
  | .enforced enabled, x => isEnforced x = enabled
  | .counted id counter, x => ∃ a ∈ x, ∃ c ∈ credentialOf id a, counter ≤ c.signCount

/-- The request may change this back. -/
def Reverts (P : Platform) (E : Environment) (H : Handling) (n : Machine) (s : WString) :
    VaultChange → Prop
  | .registered credential =>
      ∃ sid, MayRemove P E H sid credential.credentialId n ∧ isSameSid sid s = true
  | .removed id => ∃ session registration, MayRegister P E H session registration n ∧
      isSameSid session.targetSid s = true ∧ registration.credentialId = id
  | .enforced enabled => ∃ sid, MayEnforce P E H sid (!enabled) n ∧ isSameSid sid s = true
  | .counted id _ => ∃ sid, MayRemove P E H sid id n ∧ isSameSid sid s = true

/-- The names of an account do not matter. -/
theorem VaultChange.Present.congr {change : VaultChange} {a b : AccountRecord}
    (h : change.Present (some a)) (hCredentials : b.credentials = a.credentials)
    (hEnforced : b.enforced = a.enforced) : change.Present (some b) := by
  cases change with
  | registered credential =>
      obtain ⟨a', ha', hMem⟩ := h
      cases ha'
      exact ⟨b, rfl, by rwa [hCredentials]⟩
  | removed id =>
      rintro _ ⟨⟩ c hc
      exact h a rfl c (hCredentials ▸ hc)
  | enforced enabled => exact Eq.trans hEnforced h
  | counted id counter =>
      obtain ⟨a', ha', c, hc, hCounter⟩ := h
      cases ha'
      refine ⟨b, rfl, c, ?_, hCounter⟩
      unfold credentialOf at hc ⊢
      rwa [hCredentials]

section Changes

variable {H : Handling} {Done : Prop} {n : Machine} {s : WString} {x y : Option AccountRecord}

/-- A credential that is not there comes back only with a registration. -/
theorem AccountChange.lacks {id : Bytes}
    (h : AccountChange P E H Done n (VaultChange.removed id).Present s x y)
    (hx : (VaultChange.removed id).Present x) :
    (VaultChange.removed id).Present y ∨
      Reverts P E H n s (.removed id) ∧ Done := by
  cases h with
  | other => exact .inl hx
  | rename a name =>
      left
      rintro _ ⟨⟩ c hc
      exact hx a rfl c hc
  | vanish => exact .inl nofun
  | @count _ a _ record _ _ _ counter _ _ _ _ _ hKnown _ _ =>
      left
      rintro _ ⟨⟩ c hc
      dsimp only at hc
      rw [setSignCount_eq_modify] at hc
      rcases Keyed.mem_modify hc with hOld | ⟨d, hd, rfl⟩
      · exact hKnown a rfl c hOld
      · exact hKnown a rfl d (Keyed.mem_of_lookup hd)
  | @register _ session registration createdAt base hMay hDone hTarget hBase =>
      by_cases hNew : registration.credentialId = id
      · exact .inr ⟨⟨session, registration, hMay, hTarget, hNew⟩, hDone⟩
      · left
        rintro _ ⟨⟩ c hc
        rcases List.mem_append.mp hc with hOld | hAdded
        · cases x with
          | none =>
              -- a new account has no other credential
              rw [hBase] at hOld
              cases hOld
          | some a =>
              obtain rfl : base = a := hBase
              exact hx base rfl c hOld
        · obtain rfl := List.mem_singleton.mp hAdded
          exact hNew
  | remove =>
      left
      rintro _ ⟨⟩ c hc
      exact hx _ rfl c (List.mem_of_mem_eraseP hc)
  | enforce =>
      left
      rintro _ ⟨⟩ c hc
      exact hx _ rfl c hc

/-- A counter does not go back as long as its record stays. -/
theorem AccountChange.counted {id : Bytes} {counter : UInt32}
    (h : AccountChange P E H Done n (VaultChange.counted id counter).Present s x y)
    (hx : (VaultChange.counted id counter).Present x) :
    (VaultChange.counted id counter).Present y ∨
      Reverts P E H n s (.counted id counter) ∧ Done ∨
        Vanished P E H.before.machine.tick n.tick s := by
  cases h with
  | other => exact .inl hx
  | rename => exact .inl (hx.congr rfl rfl)
  | vanish _ hVanished => exact .inr (.inr hVanished)
  | @count _ a session record value assertion front accepted _ _ _ _ _ hKnown hRecord hVerify =>
      obtain ⟨a', ha', c, hc, hCounter⟩ := hKnown
      cases ha'
      left
      refine ⟨_, rfl, ?_⟩
      rw [credentialOf_setSignCount hRecord]
      by_cases hSame : id = front.credentialid
      · -- the assertion is one of this record
        rw [if_pos hSame]
        have hFound : credentialOf id a = some record := hSame ▸ hRecord
        obtain rfl := Option.some.inj (hFound.symm.trans hc)
        exact ⟨_, rfl, UInt32.le_trans hCounter (FidoVerifier.le_of_verifyAssertion hVerify)⟩
      · rw [if_neg hSame]
        exact ⟨c, hc, hCounter⟩
  | @register _ session registration createdAt base _ _ _ hBase =>
      obtain ⟨a, rfl, c, hc, hCounter⟩ := hx
      obtain rfl : base = a := hBase
      -- the lookup finds the old record before the new one
      left
      refine ⟨_, rfl, c, ?_, hCounter⟩
      unfold credentialOf at hc ⊢
      rw [List.find?_append, hc]
      rfl
  | @remove a sid credentialId hMay hDone hSame _ =>
      by_cases hId : id = credentialId
      · rw [← hId] at hMay
        exact .inr (.inl ⟨⟨sid, hMay, hSame⟩, hDone⟩)
      · obtain ⟨a', ha', c, hc, hCounter⟩ := hx
        cases ha'
        left
        refine ⟨_, rfl, c, ?_, hCounter⟩
        rw [credentialOf_eq_lookup, eraseCredential_credentials, Keyed.lookup_erase_of_ne hId,
          ← credentialOf_eq_lookup]
        exact hc
  | enforce =>
      obtain ⟨a', ha', c, hc, hCounter⟩ := hx
      cases ha'
      exact .inl ⟨_, rfl, c, hc, hCounter⟩

/-- A change is gone only after a request that went through, or with the whole account. -/
theorem AccountChange.present {change : VaultChange}
    (h : AccountChange P E H Done n change.Present s x y) (hx : change.Present x) :
    change.Present y ∨ Reverts P E H n s change ∧ Done ∨
      Vanished P E H.before.machine.tick n.tick s := by
  cases change with
  | registered credential =>
      refine (AccountChange.has h hx).imp_right (Or.imp_left ?_)
      rintro ⟨sid, hMay, hDone, hSame⟩
      exact ⟨⟨sid, hMay, hSame⟩, hDone⟩
  | removed id => exact (AccountChange.lacks h hx).imp_right .inl
  | enforced enabled =>
      refine (AccountChange.isEnforced h hx).imp_right (Or.imp_left ?_)
      rintro ⟨sid, hMay, hDone, hSame⟩
      exact ⟨⟨sid, hMay, hSame⟩, hDone⟩
  | counted id counter => exact AccountChange.counted h hx

end Changes

/-! ## Saved changes -/

/-- What a change of an account comes to when its vault is saved. -/
theorem present_of_saved (hT : P.Transcodes) (hProtects : P.Protects) (hParses : P.ParsesDumps)
    {change : VaultChange} {s : WString} {v : Vault} {m n : Machine}
    (hSave : save P E v m = (.returned (.ok ()), n))
    (hChange : change.Present (accountOf s v.accounts)) :
    SealedPrimary P n ∧ ∀ w, vaultIn P n.disk .primary = some w →
      change.Present (accountOf s w.accounts) := by
  obtain ⟨hSealed, hAccounts⟩ := saved_ok hT hProtects hParses hSave
  refine ⟨hSealed, fun w hw => ?_⟩
  obtain ⟨hSame, hText⟩ := hAccounts w hw
  rw [hSame, accountOf_transcoded hText]
  cases hFound : accountOf s v.accounts with
  | none =>
      rw [hFound] at hChange
      exact hChange
  | some a =>
      rw [hFound] at hChange
      exact hChange.congr rfl rfl

/-- The vault that was loaded has distinct identifiers in every account. -/
theorem distinctIds_of_loadOrCreate {m k : Machine} {v : Vault}
    (h : loadOrCreate P E m = (.returned (.ok v), k)) {a : AccountRecord} (ha : a ∈ v.accounts) :
    DistinctIds a := by
  have hEnd : LoadEnd P E m (.returned (.ok v)) k := (meets_loadOrCreate m).of_eq h
  cases hEnd with
  | found _ hVault _ _ _ =>
      obtain ⟨content, -, hOpen⟩ := vaultIn_eq_some.mp hVault
      exact ((isVaultValid_iff.mp (isVaultValid_of_vaultOf hOpen)).accounts a ha).ids_nodup
  | created _ hNone _ _ hReturned =>
      rw [hReturned v rfl, hNone] at ha
      cases ha

theorem upsertAccount_ok {account : AccountRecord} {m n : Machine}
    (h : upsertAccount P E account m = (.returned (.ok ()), n)) :
    ∃ (v : Vault) (k : Machine), save P E { v with accounts := upsert account v.accounts } k =
      (.returned (.ok ()), n) := by
  unfold upsertAccount at h
  obtain ⟨r, k, _, h⟩ := bind_returned_iff.mp h
  cases r with
  | error e => cases h
  | ok v => exact ⟨v, k, h⟩

theorem setEnforced_ok {sid : WString} {enabled : Bool} {m n : Machine}
    (h : setEnforced P E sid enabled m = (.returned (.ok ()), n)) :
    ∃ (v : Vault) (k : Machine), (accountOf sid v.accounts).isSome = true ∧ save P E { v with
      accounts := modifyAccount sid (fun item => { item with enforced := enabled }) v.accounts } k =
        (.returned (.ok ()), n) := by
  unfold setEnforced at h
  obtain ⟨r, k, _, h⟩ := bind_returned_iff.mp h
  cases r with
  | error e => cases h
  | ok v =>
      dsimp only at h
      cases hAccount : accountOf sid v.accounts with
      | none =>
          rw [hAccount] at h
          cases h
      | some account =>
          rw [hAccount] at h
          dsimp only at h
          split_ifs at h
          · cases h
          · exact ⟨v, k, by rw [hAccount]; rfl, h⟩

theorem removeCredential_ok {sid : WString} {id : Bytes} {m n : Machine}
    (h : removeCredential P E sid id m = (.returned (.ok ()), n)) :
    ∃ (v : Vault) (k : Machine), (∀ a ∈ v.accounts, DistinctIds a) ∧ save P E { v with
      accounts := modifyAccount sid (eraseCredential id) v.accounts } k =
        (.returned (.ok ()), n) := by
  unfold removeCredential at h
  obtain ⟨r, k, hLoad, h⟩ := bind_returned_iff.mp h
  cases r with
  | error e => cases h
  | ok v =>
      dsimp only at h
      cases hAccount : accountOf sid v.accounts with
      | none =>
          rw [hAccount] at h
          cases h
      | some account =>
          rw [hAccount] at h
          dsimp only at h
          split_ifs at h
          · cases h
          · cases h
          · exact ⟨v, k, fun a ha => distinctIds_of_loadOrCreate hLoad ha, h⟩

theorem storeRegistration_returned {session : Session} {registration : RegistrationResult}
    {m k n : Machine} {v : Vault} {count : Nat}
    (hLoad : loadOrCreate P E m = (.returned (.ok v), k))
    (h : storeRegistration P E session registration m = (.returned count, n)) :
    ∃ (base : AccountRecord) (l : Machine), save P E { v with accounts := upsert { base with
      username := session.username
      credentials := base.credentials ++
        [newCredential session registration (formatTime (E.systemTime k.tick))] } v.accounts } l =
        (.returned (.ok ()), n) ∧
      wcsicmpEq base.sid session.targetSid = true := by
  cases hNew : isRegistered registration.credentialId v with
  | true =>
      unfold storeRegistration at h
      rw [bind_returned hLoad] at h
      dsimp only at h
      rw [if_pos hNew] at h
      cases h
  | false =>
      rw [storeRegistration_loaded hLoad hNew] at h
      unfold storeNew at h
      obtain ⟨added, l, hAdded, h⟩ := bind_returned_iff.mp h
      obtain ⟨hAdd, rfl⟩ := ofExcept_returned_iff.mp hAdded
      obtain ⟨v', count'⟩ := added
      obtain ⟨base, hBase, rfl, -⟩ := addCredential_eq hAdd
      obtain ⟨r, l, hSave, h⟩ := bind_returned_iff.mp h
      cases r with
      | error e => cases h
      | ok _ =>
          cases h
          refine ⟨base, _, hSave, ?_⟩
          rw [hBase]
          cases hFound : accountOf session.targetSid v.accounts with
          | none => exact wcsicmpEq_refl _
          | some a => exact sid_of_accountOf hFound

/-! ## Answers -/

/-- The request of the event was answered with `ok`. -/
def AnsweredOk (P : Platform) (E : Environment) (b : Broker) (e : Event) (caller : Caller)
    (request : Json) : Prop :=
  ∃ pipe input output, e = .request pipe input ∧
    openRequest P pipe input = .ok (caller, request) ∧
    (serve P E pipe input b).1 = some (output, true)

/-- An operation with a transaction that replies is answered with `ok`. -/
theorem Handling.Concluded.printed (hStrict : P.StrictUtf8) {H : Handling} {m n : Machine} {j : Json}
    {op : Bytes} (h : Concluded P E H m (.returned j) n) (hOp : H.operation = .ok op)
    (hMem : op ∈ transactions) : ∃ output, BrokerService.printed P j = .returned (output, true) := by
  have hOk : ∀ j : Json, j.allStrings validUtf8 = true →
      j.valueOr Json.getBool (text "ok") false = .ok true →
      ∃ output, BrokerService.printed P j = .returned (output, true) := by
    intro j hStrings hField
    obtain ⟨output, hDump⟩ := hStrict.dump_ok j hStrings
    exact ⟨output, printed_eq_returned.mpr ⟨hDump, hField⟩⟩
  have hEchoed : ∀ {ε : Type} {r : Outcome Bytes (Except ε Unit)}, Echoes r (.returned j) →
      ∃ output, BrokerService.printed P j = .returned (output, true) := by
    intro ε r hEchoes
    obtain rfl := Outcome.returned.inj (hEchoes.1 (hEchoes.2 j rfl))
    exact hOk okReply rfl rfl
  cases h with
  | without hNone => exact absurd hMem (hNone j op rfl hOp)
  | verify _ hEchoes => exact hEchoed hEchoes
  | register _ _ hEnd =>
      rcases hEnd with ⟨count, -, hReply⟩ | ⟨-, hNone⟩
      · obtain rfl := Outcome.returned.inj hReply
        exact hOk (countReply count) rfl rfl
      · exact absurd rfl (hNone j)
  | remove _ hEchoes => exact hEchoed hEchoes
  | enforce _ hEchoes => exact hEchoed hEchoes

theorem answered_of_replied (hStrict : P.StrictUtf8) {b : Broker} {pipe : PipeClient} {input : Bytes}
    {caller : Caller} {request j : Json} {op : Bytes}
    (hOpen : openRequest P pipe input = .ok (caller, request))
    (hReplied : (handle P E caller request b).1 = .returned j)
    (hOp : (⟨b, caller, request⟩ : Handling).operation = .ok op) (hMem : op ∈ transactions) :
    AnsweredOk P E b (.request pipe input) caller request := by
  have hConducted : Conducted P E ⟨b, caller, request⟩ _ _ :=
    handle_conducts (P := P) (E := E) ⟨b, caller, request⟩
  obtain ⟨m, -, hConcluded⟩ := hConducted.store
  rw [hReplied] at hConcluded
  obtain ⟨output, hPrinted⟩ := hConcluded.printed hStrict hOp hMem
  refine ⟨pipe, input, output, rfl, hOpen, ?_⟩
  unfold serve
  rw [processRequest_apply, answer_of_openRequest hOpen]
  rcases hHandle : handle P E caller request b with ⟨o, b'⟩
  rw [hHandle] at hReplied
  obtain rfl : o = .returned j := hReplied
  dsimp only
  rw [hPrinted]

/-- The event takes the change of the account of `s` back: it is a request that may do so
and is answered with `ok`, or the Windows account is gone. -/
def Undoes (P : Platform) (E : Environment) (b : Broker) (e : Event) (s : WString)
    (change : VaultChange) : Prop :=
  (∃ caller request, AnsweredOk P E b e caller request ∧
    Reverts P E ⟨b, caller, request⟩ (step P E b e).machine s change) ∨
  Vanished P E b.machine.tick (step P E b e).machine.tick s

/-- The event is a request that may take the change back, whatever comes of it. -/
def Attempts (P : Platform) (E : Environment) (b : Broker) (e : Event) (s : WString)
    (change : VaultChange) : Prop :=
  ∃ pipe input caller request, e = .request pipe input ∧
    openRequest P pipe input = .ok (caller, request) ∧
    Reverts P E ⟨b, caller, request⟩ (step P E b e).machine s change

/-- A save that fails does not lose the change. -/
def VaultChange.Safe (E : Environment) (change : VaultChange) : Prop :=
  WritesSucceed E ∨ change = .enforced true

theorem Reverts.operation {H : Handling} {n : Machine} {s : WString} {change : VaultChange}
    (h : Reverts P E H n s change) : ∃ op ∈ transactions, H.operation = .ok op := by
  have hRemoves : ∀ {sid id}, MayRemove P E H sid id n → ∃ op ∈ transactions, H.operation = .ok op := by
    rintro sid id (⟨hOp, -, -⟩ | ⟨hOp, -, -, -, -⟩)
    · exact ⟨_, by decide, hOp⟩
    · exact ⟨_, by decide, hOp⟩
  cases change with
  | registered credential =>
      obtain ⟨sid, hMay, -⟩ := h
      exact hRemoves hMay
  | removed id =>
      obtain ⟨session, registration, hMay, -⟩ := h
      exact ⟨_, by decide, hMay.operation⟩
  | enforced enabled =>
      obtain ⟨sid, hMay, -⟩ := h
      exact ⟨_, by decide, hMay.operation⟩
  | counted id counter =>
      obtain ⟨sid, hMay, -⟩ := h
      exact hRemoves hMay

/-- A request that was answered with `ok` made this change of the account of the SID, and
the machine was the given one when it had; an assertion that was accepted counts unless
the request goes on to remove its credential. -/
inductive Acknowledges (P : Platform) (E : Environment) (b : Broker) (e : Event) :
    WString → VaultChange → Machine → Prop
  | enforcement {caller : Caller} {request : Json} {sid : WString} {enabled : Bool} {m : Machine} :
      AnsweredOk P E b e caller request →
      MayEnforce P E ⟨b, caller, request⟩ sid enabled (step P E b e).machine →
      setEnforced P E sid enabled m = (.returned (.ok ()), (step P E b e).machine) →
      Acknowledges P E b e sid (.enforced enabled) (step P E b e).machine
  | removal {caller : Caller} {request : Json} {sid : WString} {id : Bytes} {m : Machine} :
      AnsweredOk P E b e caller request →
      MayRemove P E ⟨b, caller, request⟩ sid id (step P E b e).machine →
      removeCredential P E sid id m = (.returned (.ok ()), (step P E b e).machine) →
      Acknowledges P E b e sid (.removed id) (step P E b e).machine
  | registration {caller : Caller} {request : Json} {session : Session}
      {registration : RegistrationResult} {m k : Machine} {v : Vault} {count : Nat} :
      AnsweredOk P E b e caller request →
      MayRegister P E ⟨b, caller, request⟩ session registration (step P E b e).machine →
      loadOrCreate P E m = (.returned (.ok v), k) →
      storeRegistration P E session registration m =
        (.returned count, (step P E b e).machine) →
      Acknowledges P E b e session.targetSid
        (.registered (newCredential session registration (formatTime (E.systemTime k.tick))))
        (step P E b e).machine
  | assertion {caller : Caller} {request value : Json} {kind : SessionKind} {session : Session}
      {b₁ : Broker} {n : Machine} {assertion : FIDOSignResponse} {front : FIDOAssertionData} :
      AnsweredOk P E b e caller request →
      AtVerification P E ⟨b, caller, request⟩ kind session value b₁ →
      verifySessionAssertion P E session value b₁.machine = (.returned (.ok ()), n) →
      assertionFromJson value = .ok assertion → assertion.assertions = [front] →
      (kind = .removalAuthorization → session.credentialToRemove ≠ front.credentialid) →
      Acknowledges P E b e session.targetSid (.counted front.credentialid
        (FidoVerifier.counterOf (Convert.base64URLDecode front.authenticatordata))) n

/-- The operations that make such a change. -/
def VaultChange.operations : VaultChange → List Bytes
  | .registered _ => [text "commit_registration"]
  | .removed _ => [text "remove_with_password", text "finish_remove"]
  | .enforced _ => [text "set_enforcement"]
  | .counted _ _ => [text "finish_auth", text "finish_remove"]

/-- Every request with a transaction that is answered with `ok` acknowledges a change. -/
theorem acknowledges_of_answeredOk {b : Broker} {e : Event} {caller : Caller} {request : Json}
    {op : Bytes} (h : AnsweredOk P E b e caller request)
    (hOp : (⟨b, caller, request⟩ : Handling).operation = .ok op) (hMem : op ∈ transactions) :
    ∃ s change m, Acknowledges P E b e s change m ∧ op ∈ change.operations := by
  have hAnswer := h
  obtain ⟨pipe, input, output, rfl, hOpen, hOk⟩ := h
  obtain ⟨j, b', hHandle, -, hAfter⟩ := handle_of_serve_ok hOpen hOk
  have hMachine : (step P E b (.request pipe input)).machine = b'.machine :=
    congrArg Broker.machine hAfter
  have hConducted : Conducted P E ⟨b, caller, request⟩ (.returned j) b' :=
    (handle_conducts ⟨b, caller, request⟩).of_eq hHandle
  obtain ⟨m, -, hConcluded⟩ := hConducted.store
  rw [← hMachine] at hConcluded
  have hLater := hConcluded.later
  -- how the request concluded is how the event ends
  generalize hLast : (step P E b (.request pipe input)).machine = n at hConcluded hLater
  cases hConcluded with
  | without hNone => exact absurd hMem (hNone j op rfl hOp)
  | verify hAt _ =>
      obtain ⟨finishing, hVerifying, hFinish⟩ := hAt.operation
      cases hVerifying
      obtain rfl : op = text "finish_auth" := Except.ok.inj (hOp.symm.trans hFinish)
      obtain ⟨session, value, b₁, n, hAt, hVerified⟩ := atVerification_of_returned .auth hOp hHandle
      obtain ⟨_, _, assertion, front, _, _, _, hAssertion, hOne, _⟩ :=
        verifySessionAssertion_ok hVerified
      exact ⟨_, _, n, .assertion hAnswer hAt hVerified hAssertion hOne nofun,
        List.mem_cons_self⟩
  | @register _ session registration b₁ _ hMay hReply =>
      obtain rfl : op = text "commit_registration" := Except.ok.inj (hOp.symm.trans hMay.operation)
      have hMay' := hMay.mono hLater
      rw [← hLast] at hMay'
      rcases hReply with ⟨count, hCount, -⟩ | ⟨-, hNone⟩
      · have hStored : storeRegistration P E session registration b₁.machine =
            (.returned count, (step P E b (.request pipe input)).machine) :=
          Prod.ext hCount hLast.symm
        -- the record is dated by the clock after the vault was loaded
        have hLoads := hStored
        unfold storeRegistration at hLoads
        obtain ⟨r, k, hLoad, hRest⟩ := bind_returned_iff.mp hLoads
        cases r with
        | error e => cases hRest
        | ok v => exact ⟨_, _, _, .registration hAnswer hMay' hLoad hStored, List.mem_cons_self⟩
      · exact absurd rfl (hNone j)
  | @remove _ _ sid id hMay hEchoes =>
      have hMay' := hMay.mono hLater
      rw [← hLast] at hMay'
      have hRemoved : removeCredential P E sid id m =
          (.returned (.ok ()), (step P E b (.request pipe input)).machine) :=
        Prod.ext (hEchoes.2 j rfl) hLast.symm
      refine ⟨_, _, _, .removal hAnswer hMay' hRemoved, ?_⟩
      rcases hMay with ⟨hOther, -, -⟩ | ⟨hOther, -, -, -, -⟩
      · obtain rfl : op = text "remove_with_password" := Except.ok.inj (hOp.symm.trans hOther)
        exact List.mem_cons_self
      · obtain rfl : op = text "finish_remove" := Except.ok.inj (hOp.symm.trans hOther)
        exact List.mem_cons_of_mem _ List.mem_cons_self
  | @enforce _ _ sid enabled hMay hEchoes =>
      obtain rfl : op = text "set_enforcement" := Except.ok.inj (hOp.symm.trans hMay.operation)
      have hMay' := hMay.mono hLater
      rw [← hLast] at hMay'
      have hSet : setEnforced P E sid enabled m =
          (.returned (.ok ()), (step P E b (.request pipe input)).machine) :=
        Prod.ext (hEchoes.2 j rfl) hLast.symm
      exact ⟨_, _, _, .enforcement hAnswer hMay' hSet, List.mem_cons_self⟩

section Lasting

variable (hT : P.Transcodes) (hProtects : P.Protects) (hParses : P.ParsesDumps)
include hT hProtects hParses

/-- The change that was acknowledged was saved. -/
theorem Acknowledges.saved {b : Broker} {e : Event} {s : WString} {change : VaultChange} {m : Machine}
    (h : Acknowledges P E b e s change m) :
    SealedPrimary P m ∧ ∀ v, vaultIn P m.disk .primary = some v →
      change.Present (accountOf s v.accounts) := by
  cases h with
  | @enforcement _ _ _ enabled _ _ _ hSet =>
      obtain ⟨v, k, hSome, hSave⟩ := setEnforced_ok hSet
      refine present_of_saved hT hProtects hParses hSave ?_
      dsimp only
      rw [accountOf_modifyAccount (f := fun item => { item with enforced := enabled }) fun _ => rfl,
        if_pos (wcsicmpEq_refl _)]
      obtain ⟨account, hAccount⟩ := Option.isSome_iff_exists.mp hSome
      rw [hAccount]
      rfl
  | @removal _ _ sid id _ _ _ hRemoved =>
      obtain ⟨v, k, hIds, hSave⟩ := removeCredential_ok hRemoved
      refine present_of_saved hT hProtects hParses hSave ?_
      dsimp only
      rw [accountOf_modifyAccount (f := eraseCredential id) fun _ => rfl, if_pos (wcsicmpEq_refl _)]
      cases hAccount : accountOf s v.accounts with
      | none => exact nofun
      | some account =>
          rintro _ ⟨⟩ c hc hId
          have hDistinct : DistinctIds account := hIds account (mem_of_accountOf hAccount)
          -- what remains is found under its id, and under this one nothing is
          rw [eraseCredential_credentials] at hc
          have hFound := Keyed.lookup_of_mem (hDistinct.erase id) hc
          rw [hId, Keyed.lookup_erase hDistinct, if_pos rfl] at hFound
          cases hFound
  | @registration _ _ session registration _ k _ _ _ _ hLoad hStored =>
      obtain ⟨base, l, hSave, hSid⟩ := storeRegistration_returned hLoad hStored
      refine present_of_saved hT hProtects hParses hSave ?_
      dsimp only
      rw [accountOf_upsert, if_pos hSid]
      refine ⟨_, rfl, List.mem_map_of_mem ?_⟩
      exact List.mem_append_right _ List.mem_cons_self
  | @assertion _ _ _ kind session b₁ _ assertion front _ _ hVerified hAssertion hOne _ =>
      obtain ⟨account, k, assertion', front', record, counter, hFind, hAssertion', hOne', hRecord,
        hVerify, hUpsert⟩ := verifySessionAssertion_ok hVerified
      obtain rfl : assertion = assertion' := Except.ok.inj (hAssertion.symm.trans hAssertion')
      obtain rfl : front = front' := (List.cons.inj (hOne.symm.trans hOne')).1
      obtain ⟨w, hLoad, hAccount⟩ := load_of_findAccount hFind
      obtain ⟨v, l, hSave⟩ := upsertAccount_ok hUpsert
      refine present_of_saved hT hProtects hParses hSave ?_
      dsimp only
      rw [accountOf_upsert, if_pos (sid_of_accountOf hAccount)]
      refine ⟨_, rfl, { record with signCount := counter }, ?_, ?_⟩
      · exact (credentialOf_setSignCount hRecord).trans (if_pos rfl)
      · obtain ⟨accepted, publicKey, hAccepts⟩ := FidoVerifier.verifyAssertion_iff.mp hVerify
        obtain rfl : front = accepted := (List.cons.inj (hOne.symm.trans hAccepts.one)).1
        rw [hAccepts.counter]
        exact UInt32.le_refl _

omit hT hProtects hParses in
/-- How the event goes on after the assertion: it is over, or removes another credential. -/
theorem after_assertion {b : Broker} {e : Event} {caller : Caller} {request value : Json}
    {kind : SessionKind} {session : Session} {b₁ : Broker} {n : Machine}
    (hAnswered : AnsweredOk P E b e caller request)
    (hAt : AtVerification P E ⟨b, caller, request⟩ kind session value b₁)
    (hVerified : verifySessionAssertion P E session value b₁.machine = (.returned (.ok ()), n)) :
    kind = .authentication ∧ (step P E b e).machine = n ∨
      kind = .removalAuthorization ∧ (step P E b e).machine =
        (removeCredential P E session.targetSid session.credentialToRemove n).2 := by
  obtain ⟨pipe, input, output, rfl, hOpen, -⟩ := hAnswered
  rw [step_machine hOpen]
  obtain ⟨op, hOp, -⟩ := hAt.operation
  cases hOp with
  | auth =>
      rw [hAt.handle_auth hVerified]
      exact .inl ⟨rfl, rfl⟩
  | remove => exact .inr ⟨rfl, hAt.handle_remove hVerified⟩

omit hT hProtects hParses in
/-- The change was made while the event was handled; what comes after it are calls of the
store. -/
theorem Acknowledges.during {b : Broker} {e : Event} {s : WString} {change : VaultChange}
    {m : Machine} (h : Acknowledges P E b e s change m) :
    Later b.machine m ∧ ∀ R : Machine → Machine → Prop, Transacts P E R →
      R m (step P E b e).machine := by
  cases h with
  | enforcement => exact ⟨step_later b e, fun R hR => hR.refl _⟩
  | removal => exact ⟨step_later b e, fun R hR => hR.refl _⟩
  | registration => exact ⟨step_later b e, fun R hR => hR.refl _⟩
  | @assertion _ _ value _ session b₁ _ _ _ hAnswered hAt hVerified _ _ _ =>
      refine ⟨(later_of_prepares hAt.prepared).trans (later_of_verified hVerified), fun R hR => ?_⟩
      rcases after_assertion hAnswered hAt hVerified with ⟨-, hLast⟩ | ⟨-, hLast⟩
      · rw [hLast]
        exact hR.refl m
      · rw [hLast]
        exact hR.removeCredential _ _ m

omit hT hProtects hParses in
/-- A removal of one credential keeps the counters of the others in every table. -/
theorem held_removeCredential {R : Regime P E} (hSpoils : ∀ v, ¬ R.Spoils v) {sid s : WString}
    {id id' : Bytes} {counter : UInt32} (hId : id ≠ id') {m : Machine}
    (hBefore : ∀ A, R.Held m A → TableWith s (VaultChange.counted id counter).Present A) :
    Meets (removeCredential P E sid id') m fun _ n => R.Good n → ∀ A, R.Held n A →
      TableWith s (VaultChange.counted id counter).Present A := by
  have hLoad := R.held_load m
  unfold Meets at hLoad
  unfold removeCredential
  rw [meets_bind]
  unfold Meets
  rcases hCase : loadOrCreate P E m with ⟨(e | v) | what | _, k⟩ <;> rw [hCase] at hLoad
  · exact fun hGood A hA => hBefore A ((hLoad hGood).1 A hA)
  · dsimp only
    cases accountOf sid v.accounts with
    | none => exact fun hGood A hA => hBefore A ((hLoad hGood).1 A hA)
    | some account =>
        dsimp only
        split_ifs
        · exact fun hGood A hA => hBefore A ((hLoad hGood).1 A hA)
        · exact fun hGood A hA => hBefore A ((hLoad hGood).1 A hA)
        · set w : Vault := { v with accounts := modifyAccount sid (eraseCredential id') v.accounts }
          have hAfter : Meets (save P E w) k fun _ n => Later k n := steps_later.save w k
          obtain ⟨hSaved, hLater⟩ := (R.held_save w k).and hAfter
          intro hGood A hA
          obtain ⟨hSame, hLoaded⟩ := hLoad (R.good_of_later hLater hGood)
          -- the file is as it was, or has the vault without the other credential
          rcases hSaved hGood A hA with hOld | ⟨-, hStored⟩
          · exact hBefore A (hSame A hOld)
          · obtain ⟨rfl, hText⟩ := hStored.resolve_left (hSpoils _)
            have hTable := hBefore _ (hLoaded v rfl)
            refine ⟨distinct_transcoded (hTable.distinct.modifyAccount fun _ => rfl) hText, ?_⟩
            obtain ⟨a, ha, c, hc, hCounter⟩ := hTable.account
            rw [accountOf_transcoded hText,
              accountOf_modifyAccount (f := eraseCredential id') fun _ => rfl, ha]
            split_ifs
            · refine ⟨_, rfl, c, ?_, hCounter⟩
              have hOther : Keyed.lookup CredentialRecord.credentialId id
                  (Keyed.erase CredentialRecord.credentialId id' a.credentials) =
                    Keyed.lookup CredentialRecord.credentialId id a.credentials :=
                Keyed.lookup_erase_of_ne hId a.credentials
              rw [← eraseCredential_credentials, ← credentialOf_eq_lookup,
                ← credentialOf_eq_lookup] at hOther
              exact hOther.trans hc
            · exact ⟨_, rfl, c, hc, hCounter⟩
  · exact fun hGood A hA => hBefore A ((hLoad hGood).1 A hA)
  · exact fun hGood A hA => hBefore A ((hLoad hGood).1 A hA)

/-- The vault that was saved has distinct SIDs. -/
theorem Acknowledges.distinct (hTorn : TornRefused P E) {b₀ : Broker}
    (hDistinct : ∀ file v, VaultFile.Kept file → vaultIn P b₀.machine.disk file = some v →
      DistinctSids v.accounts)
    {es : List Event} {e : Event} (hEvents : ∀ e' ∈ es ++ [e], e'.Leaves P DistinctSids) {s : WString}
    {change : VaultChange} {m : Machine} (h : Acknowledges P E (run P E b₀ es) e s change m)
    {v : Vault} (hVault : vaultIn P m.disk .primary = some v) : DistinctSids v.accounts := by
  have hReach : InReach P b₀.machine m v := .inl ⟨.primary, .inl rfl, hVault⟩
  -- the change was made at the end of the event, or before it went on to a removal
  have hEnds : (step P E (run P E b₀ es) e).machine = m →
      DistinctSids v.accounts := by
    intro hLast
    refine distinct_held hT hProtects hParses hTorn hDistinct hEvents v.accounts fun _ => .inr ⟨v, rfl, ?_⟩
    rw [run_concat, hLast]
    exact hReach
  cases h with
  | enforcement => exact hEnds rfl
  | removal => exact hEnds rfl
  | registration => exact hEnds rfl
  | @assertion caller request _ _ _ _ _ _ _ hAnswered hAt hVerified _ _ _ =>
      rcases after_assertion hAnswered hAt hVerified with ⟨-, hLast⟩ | ⟨rfl, -⟩
      · exact hEnds hLast
      · have hBefore := distinct_held hT hProtects hParses hTorn hDistinct
          (fun e' he' => hEvents e' (List.mem_append_left _ he'))
        have hSteps := hAt.prepared_removal hVerified
        have hKeeps : (anyFile hT hProtects hParses hTorn b₀.machine).Keeps
            ⟨run P E b₀ es, caller, request⟩ True m DistinctSids False :=
          keeps_distinct fun _ h => h
        have hHere := Regime.keeps_prepares hSteps (Std.Refl.refl m) trivial hKeeps hBefore
        exact hHere.resolve_right id v.accounts fun _ => .inr ⟨v, rfl, hReach⟩

omit hT hProtects hParses in
/-- Only an enforcement is safe when writes fail: then it is in no vault that a save could
have replaced by the backup. -/
theorem VaultChange.Safe.empty {s : WString} {change : VaultChange} (h : change.Safe E) :
    WritesSucceed E ∨ ¬ TableWith s change.Present [] := by
  refine h.imp_right ?_
  rintro rfl hTable
  have hNone : isEnforced (accountOf s []) = true := hTable.account
  cases hNone

omit hT hProtects hParses in
theorem VaultChange.Safe.spoils {s : WString} {change : VaultChange} (h : change.Safe E) {v : Vault}
    (hFails : ¬ WritesSucceed E) (hNone : hasEnforcedAccounts v = false) :
    ¬ change.Present (accountOf s v.accounts) := by
  obtain rfl := h.resolve_left hFails
  intro hEnforced
  have hSome : isEnforced (accountOf s v.accounts) = true := hEnforced
  cases hAccount : accountOf s v.accounts with
  | none =>
      rw [hAccount] at hSome
      cases hSome
  | some a =>
      rw [hAccount] at hSome
      have hAny : hasEnforcedAccounts v = true :=
        List.any_eq_true.mpr ⟨a, mem_of_accountOf hAccount, hSome⟩
      rw [hNone] at hAny
      cases hAny

/-- At the end of the event, every table that a load may return has the change. -/
theorem Acknowledges.held {b : Broker} {e : Event} {s : WString} {change : VaultChange} {m : Machine}
    (h : Acknowledges P E b e s change m) (hSafe : change.Safe E)
    (hDistinct : ∀ v, vaultIn P m.disk .primary = some v → DistinctSids v.accounts)
    (hGood : (fallback hT hProtects hParses m (TableWith s change.Present) hSafe.empty).Good
      (step P E b e).machine) :
    ∀ A, (fallback hT hProtects hParses m (TableWith s change.Present) hSafe.empty).Held
      (step P E b e).machine A → TableWith s change.Present A := by
  have hHere : ∀ A, (fallback hT hProtects hParses m
      (TableWith s change.Present) hSafe.empty).Held m A → TableWith s change.Present A := by
    intro A hA
    -- nothing was loaded since `m`, so there is only the file
    rcases hA (Std.Refl.refl m) with hQ | ⟨v, rfl, hVault | ⟨file, hMem⟩⟩
    · exact hQ
    · exact ⟨hDistinct v hVault, (h.saved hT hProtects hParses).2 v hVault⟩
    · rw [entriesSince_self] at hMem
      cases hMem
  have hNever : WritesSucceed E → ∀ w, ¬ (fallback hT hProtects hParses m
      (TableWith s change.Present) hSafe.empty).Spoils w :=
    fun hWrites _ hSpoils => hSpoils.1 hWrites
  cases h with
  | enforcement => exact hHere
  | removal => exact hHere
  | registration => exact hHere
  | assertion hAnswered hAt hVerified _ _ hOther =>
      rcases after_assertion hAnswered hAt hVerified with ⟨-, hLast⟩ | ⟨hKind, hLast⟩
      · rw [hLast]
        exact hHere
      · have hWrites : WritesSucceed E := hSafe.resolve_right nofun
        rw [hLast] at hGood ⊢
        exact held_removeCredential (hNever hWrites) (hOther hKind).symm hHere hGood

/-- If all tables that a load may return have the change, they have it after any events
that do not undo it, as long as the loads that fall back find it. -/
theorem present_run (hStrict : P.StrictUtf8) {b : Broker} {mid : List Event} {s : WString}
    {change : VaultChange} {m : Machine} (hSafe : change.Safe E)
    (hStart : ∀ A, (fallback hT hProtects hParses m (TableWith s change.Present) hSafe.empty).Held
      b.machine A → TableWith s change.Present A)
    (hSince : Later m b.machine) (hLeaves : ∀ e ∈ mid, e.Leaves P (TableWith s change.Present))
    (hFell : FellBack (TableWith s change.Present) m (run P E b mid).machine)
    (hKept : ∀ pre e post, mid = pre ++ e :: post → ¬ Undoes P E (run P E b pre) e s change ∧
      (WritesSucceed E ∨ ¬ Attempts P E (run P E b pre) e s change)) :
    ∀ v, WorkedOn P m (run P E b mid).machine v → TableWith s change.Present v.accounts := by
  let Q := TableWith s change.Present
  let R := fallback hT hProtects hParses m Q hSafe.empty
  have hStep : ∀ b' e, (∀ A, R.Held b'.machine A → Q A) →
      Later m b'.machine ∧ e.Leaves P Q ∧ R.Good (step P E b' e).machine ∧
        ¬ Undoes P E b' e s change ∧ (WritesSucceed E ∨ ¬ Attempts P E b' e s change) →
        ∀ A, R.Held (step P E b' e).machine A → Q A := by
    rintro b' e hBefore ⟨hLater, hLeft, hGoodStep, hNot, hTried⟩
    -- from outside, by a request, or at the start of a process
    refine (R.keeps_step hGoodStep ?_ ?_ (fun _ => ?_) hBefore).resolve_right hNot
    · rintro content rfl A hA
      rcases hA (hLater.trans (step_later b' _)) with hQ | ⟨w, rfl, hVault | hMem⟩
      · exact .inr hQ
      · exact (hLeft.vaultIn hVault).imp_left fun hOld _ => .inr ⟨w, rfl, .inl hOld⟩
      · exact .inl fun _ => .inr ⟨w, rfl, .inr hMem⟩
    · rintro pipe input caller request rfl hOpen
      refine Regime.keeps_account (fun a ha => ha.congr rfl rfl) (fun x y hChange hx => ?_)
        fun v hSpoils hPresent => (hSafe.spoils hSpoils.1 hSpoils.2 hPresent).elim
      refine (hChange.present hx).imp_right ?_
      rintro (⟨hReverts, hDone⟩ | hVanished)
      · -- a transaction went through if it replied; where writes fail it may have in any case
        rcases hDone with hFails | ⟨j, hj⟩
        · exact absurd ⟨pipe, input, caller, request, rfl, hOpen, hReverts⟩ (hTried.resolve_left hFails)
        · obtain ⟨op, hMem, hOp⟩ := hReverts.operation
          exact .inl ⟨caller, request, answered_of_replied hStrict hOpen hj hOp hMem, hReverts⟩
      · exact .inr hVanished
    · exact Regime.keeps_startUp (fun a ha => ha.congr rfl rfl) (fun a name ha => ha.congr rfl rfl)
        (fun hGone => .inr (.inr hGone))
        fun v hSpoils hPresent => (hSafe.spoils hSpoils.1 hSpoils.2 hPresent).elim
  have hAlong : History.Along (step P E) (fun b' e => Later m b'.machine ∧ e.Leaves P Q ∧
      R.Good (step P E b' e).machine ∧ ¬ Undoes P E b' e s change ∧
        (WritesSucceed E ∨ ¬ Attempts P E b' e s change)) b mid := by
    refine History.along_iff.mpr fun pre e post hMid => ⟨hSince.trans (run_later b pre),
      hLeaves e (by simp [hMid]), ?_, hKept pre e post hMid⟩
    refine R.good_of_later ?_ fun _ => hFell
    have hNext := run_later_append (P := P) (E := E) b (pre ++ [e]) post
    have hAll : mid = (pre ++ [e]) ++ post := by simp [hMid]
    rw [← hAll, run, History.run_concat] at hNext
    exact hNext
  intro v hWorked
  exact History.run_keeps hStep hStart hAlong v.accounts fun _ => .inr ⟨v, rfl, hWorked⟩

/-- A change that was acknowledged is in all vaults that are worked on since, as long as
the loads that fall back find it and no event undoes it. -/
theorem Acknowledges.lasts (hWrites : WritesSucceed E) (hStrict : P.StrictUtf8) {b₀ : Broker}
    (hDistinct : ∀ file v, VaultFile.Kept file → vaultIn P b₀.machine.disk file = some v →
      DistinctSids v.accounts)
    {es mid : List Event} {e : Event} (hInternal : ∀ e' ∈ es ++ e :: mid, e'.Internal)
    {s : WString} {change : VaultChange} {m : Machine}
    (h : Acknowledges P E (run P E b₀ es) e s change m)
    (hKept : ∀ pre e' post, mid = pre ++ e' :: post →
      ¬ Undoes P E (run P E b₀ (es ++ e :: pre)) e' s change)
    (hBack : ∀ v, .loaded .backup v ∈ entriesSince m (run P E b₀ (es ++ e :: mid)).machine →
      change.Present (accountOf s v.accounts))
    {v : Vault} (hWorked : WorkedOn P m (run P E b₀ (es ++ e :: mid)).machine v) :
    change.Present (accountOf s v.accounts) := by
  have hTorn : TornRefused P E := tornRefused_of_writesSucceed hWrites
  obtain ⟨hFrom, hCalls⟩ := h.during
  have hSince : Later b₀.machine m := (run_later b₀ es).trans hFrom
  have hAfter : Later m (step P E (run P E b₀ es) e).machine := hCalls _ transacts_later
  have hSplit : ∀ mid, run P E b₀ (es ++ e :: mid) = run P E (step P E (run P E b₀ es) e) mid := by
    intro mid
    rw [run, History.run_append, History.run_cons]
  have hEvents : ∀ e' ∈ mid, e'.Internal := fun e' he' => hInternal e' (by simp [he'])
  have hLeaves : ∀ e' ∈ es ++ e :: mid, e'.Leaves P DistinctSids :=
    fun e' he' => (hInternal e' he').leaves
  have hLater : Later m (run P E b₀ (es ++ e :: mid)).machine := by
    rw [hSplit]
    exact hAfter.trans (run_later _ mid)
  -- the primary file is in place since, so no vault is made anew
  have hCreated : .created ∉ entriesSince m (run P E b₀ (es ++ e :: mid)).machine := by
    have hSealed := transacts_sealed (P := P) hWrites hProtects
    have hCount := hSealed.trans (hCalls _ hSealed) (run_transacts hSealed hEvents)
    rw [← hSplit] at hCount
    exact not_created hLater (hCount (h.saved hT hProtects hParses).1).2
  have hFell : FellBack (TableWith s change.Present) m (run P E b₀ (es ++ e :: mid)).machine := by
    refine ⟨fun w hw => ⟨?_, hBack w hw⟩, fun hMem => absurd hMem hCreated⟩
    refine distinct_held hT hProtects hParses hTorn hDistinct hLeaves w.accounts
      fun _ => .inr ⟨w, rfl, .inr ⟨.backup, ?_⟩⟩
    exact mem_entriesSince_of_suffix hSince.log_suffix hLater hw
  have hSafe : change.Safe E := .inl hWrites
  rw [hSplit] at hFell hWorked hLater
  -- the change is in every table at the end of its event, and stays there
  have hStart := h.held hT hProtects hParses hSafe (fun w hw => ?_) fun _ => hFell.of_later
    hAfter.log_suffix (run_later _ mid)
  · refine (present_run hT hProtects hParses hStrict hSafe hStart hAfter
      (fun e' he' => (hEvents e' he').leaves) hFell ?_ v hWorked).account
    intro pre e' post hMid
    have hNot := hKept pre e' post hMid
    rw [hSplit] at hNot
    exact ⟨hNot, .inl hWrites⟩
  · exact h.distinct hT hProtects hParses hTorn hDistinct
      (fun e' he' => hLeaves e' (by simp at he' ⊢; tauto)) hw

end Lasting

/-! ## Acknowledged changes -/

/-- When writes succeed, whichever reads fail: every request that is answered with `ok`
and ends with a transaction acknowledges a change, and this change is in the primary vault
after any further events and in every vault loaded meanwhile, as long as every load that
fell back to the backup found it there and no event undid it. -/
theorem acknowledged_changes_last (hT : P.Transcodes) (hProtects : P.Protects)
    (hParses : P.ParsesDumps) (hStrict : P.StrictUtf8) (hWrites : WritesSucceed E) {b₀ : Broker}
    (hDistinct : ∀ file v, VaultFile.Kept file → vaultIn P b₀.machine.disk file = some v →
      DistinctSids v.accounts)
    {es mid : List Event} {e : Event} (hInternal : ∀ e' ∈ es ++ e :: mid, e'.Internal) :
    (∀ caller request op, AnsweredOk P E (run P E b₀ es) e caller request →
      operation ⟨run P E b₀ es, caller, request⟩ = .ok op → op ∈ transactions →
        ∃ s change m, Acknowledges P E (run P E b₀ es) e s change m ∧ op ∈ change.operations) ∧
    (∀ s change m, Acknowledges P E (run P E b₀ es) e s change m →
      (∀ pre e' post, mid = pre ++ e' :: post →
        ¬ Undoes P E (run P E b₀ (es ++ e :: pre)) e' s change) →
      (∀ v, .loaded .backup v ∈ entriesSince m (run P E b₀ (es ++ e :: mid)).machine →
        change.Present (accountOf s v.accounts)) →
      ∀ v, WorkedOn P m (run P E b₀ (es ++ e :: mid)).machine v →
        change.Present (accountOf s v.accounts)) :=
  ⟨fun _ _ _ hAnswered hOp hMem => acknowledges_of_answeredOk hAnswered hOp hMem,
    fun _ _ _ hAcknowledged hKept hBack _ hWorked =>
      hAcknowledged.lasts hT hProtects hParses hWrites hStrict hDistinct hInternal hKept hBack hWorked⟩

section Example

open Reference

def firstId : Bytes := text "AAECAwQFBgcICQoLDA0ODw"
def secondId : Bytes := text "EBESExQVFhcYGRobHB0eHw"

/-- `alice` with two security keys. -/
def twoKeys : Broker :=
  { machine := machine (some (vault [alice false [credential firstId, credential secondId]])) none }

def removeText (id : Bytes) : Bytes :=
  text "\x7b\"version\":1,\"op\":\"remove_with_password\",\"sid\":\"S-1-5-21-1-2-3-1001\",\"username\":\"alice\",\"password\":\"secret\",\"credentialId\":\"" ++
    id ++ text "\"\x7d"

/-- `alice` removes one of her keys. -/
def removes (id : Bytes) : Event := .request alicePipe (removeText id)

/-- `ERROR_SHARING_VIOLATION` -/
theorem sharingViolation_isError :
    (32 : DWORD) ≠ ERROR_SUCCESS ∧ (32 : DWORD) ≠ ERROR_FILE_NOT_FOUND ∧
      (32 : DWORD) ≠ ERROR_PATH_NOT_FOUND := by
  decide

/-- The primary file cannot be read from tick 18 on, when the first request is over. -/
def busyLater : Environment :=
  { calm with readFault := fun file n =>
      if file = .primary ∧ 18 ≤ n then some ⟨32, sharingViolation_isError⟩ else none }

theorem removeText_fields :
    ((Json.parse (removeText firstId)).isSome = true ∧
      (parsed (removeText firstId)).valueOr Json.getUnsigned (text "version") 0 =
        .ok kBrokerProtocolVersion ∧
      (parsed (removeText firstId)).valueOr Json.getString (text "op") [] =
        .ok (text "remove_with_password") ∧
      wideField (platform {}) (parsed (removeText firstId)) (text "sid") = .ok aliceSid ∧
      stringField (parsed (removeText firstId)) (text "credentialId") = .ok firstId) ∧
    (Json.parse (removeText secondId)).isSome = true ∧
      (parsed (removeText secondId)).valueOr Json.getUnsigned (text "version") 0 =
        .ok kBrokerProtocolVersion ∧
      (parsed (removeText secondId)).valueOr Json.getString (text "op") [] =
        .ok (text "remove_with_password") ∧
      ∀ id ∈ [firstId, secondId], (removeText id).isEmpty = false ∧
        (removeText id).length ≤ kMaxBrokerMessageBytes := by
  decide +kernel

theorem openRequest_removeFirst :
    openRequest (platform {}) alicePipe (removeText firstId) =
      .ok (aliceCaller, parsed (removeText firstId)) :=
  openRequest_eq (removeText_fields.2.2.2.2 firstId (by simp)).1
    (removeText_fields.2.2.2.2 firstId (by simp)).2 (parse_eq_parsed removeText_fields.1.1)
    removeText_fields.1.2.1 rfl

theorem openRequest_removeSecond :
    openRequest (platform {}) alicePipe (removeText secondId) =
      .ok (aliceCaller, parsed (removeText secondId)) :=
  openRequest_eq (removeText_fields.2.2.2.2 secondId (by simp)).1
    (removeText_fields.2.2.2.2 secondId (by simp)).2 (parse_eq_parsed removeText_fields.2.1)
    removeText_fields.2.2.1 rfl

/-- An answer to the first removal acknowledges that the first key is gone. -/
theorem acknowledges_removes
    (hOk : (serve (platform {}) E alicePipe (removeText firstId) twoKeys).1 =
      some (text "\x7b\"ok\":true\x7d", true)) :
    Acknowledges (platform {}) E twoKeys (removes firstId) aliceSid (.removed firstId)
      (step (platform {}) E twoKeys (removes firstId)).machine := by
  obtain ⟨-, -, hField, hSid, hId⟩ := removeText_fields.1
  have hOpens := openRequest_removeFirst
  generalize parsed (removeText firstId) = request at hField hSid hId hOpens
  have hAnswered : AnsweredOk (platform {}) E twoKeys (removes firstId) aliceCaller request :=
    ⟨alicePipe, removeText firstId, _, rfl, hOpens, hOk⟩
  have hTransaction : text "remove_with_password" ∈ transactions := by decide
  obtain ⟨s, change, m, hAcknowledged, hOp⟩ :=
    acknowledges_of_answeredOk hAnswered hField hTransaction
  have hAgain := hAcknowledged
  cases hAcknowledged with
  | enforcement =>
      rw [VaultChange.operations, List.mem_singleton] at hOp
      exact absurd hOp (by decide)
  | registration =>
      rw [VaultChange.operations, List.mem_singleton] at hOp
      exact absurd hOp (by decide)
  | assertion =>
      rw [VaultChange.operations] at hOp
      exact absurd hOp (by decide)
  | removal hOther hMay _ =>
      obtain ⟨pipe, input, output, hEvent, hOpen, -⟩ := hOther
      cases hEvent
      rw [hOpens] at hOpen
      cases hOpen
      cases hMay with
      | password _ hValidated hId' =>
          obtain ⟨_, _, _, _, _, hSid', -⟩ := hValidated
          obtain rfl := Except.ok.inj (hSid.symm.trans hSid')
          obtain rfl := Except.ok.inj (hId.symm.trans hId')
          exact hAgain
      | session hFinishes _ _ _ _ =>
          have hSame : text "remove_with_password" = text "finish_remove" :=
            Except.ok.inj (hField.symm.trans hFinishes)
          exact absurd hSame (by decide)

/-- What is a SID and is compared equal to that of `alice` is the same. -/
theorem eq_aliceSid {w : WString} (h : Reference.isStringSid w = true)
    (hSame : w.map towlower = aliceSid.map towlower) : w = aliceSid := by
  have hDigits : ∀ c : UInt16, (c == 45 || (48 ≤ c && c ≤ 57)) = true → towlower c = c := by
    intro c hc
    have hLow : c < 65 := by
      simp only [Bool.or_eq_true, beq_iff_eq, Bool.and_eq_true, decide_eq_true_eq] at hc
      rcases hc with rfl | ⟨-, hc⟩
      · decide
      · exact UInt16.lt_of_le_of_lt hc (by decide)
    unfold towlower
    exact if_neg fun hBoth => UInt16.not_le.mpr hLow hBoth.1
  obtain ⟨hPrefix, hRest⟩ := Bool.and_eq_true_iff.mp h
  obtain ⟨rest, rfl⟩ := List.isPrefixOf_iff_prefix.mp hPrefix
  have hAlice : aliceSid = wtext "S-1-" ++ wtext "5-21-1-2-3-1001" := by decide
  have hDrop : (wtext "S-1-" ++ rest).drop 4 = rest := rfl
  rw [hDrop, List.all_eq_true] at hRest
  rw [hAlice, List.map_append, List.map_append] at hSame
  have hTail := List.append_cancel_left hSame
  have hLeft : rest.map towlower = rest :=
    (List.map_congr_left fun c hc => hDigits c (hRest c hc)).trans (List.map_id rest)
  have hRight : (wtext "5-21-1-2-3-1001").map towlower = wtext "5-21-1-2-3-1001" := by decide
  rw [hLeft, hRight] at hTail
  rw [hTail, hAlice]

theorem not_vanished_alice {fido : FidoLibrary} (hAccounts : ∀ t, E.accounts t = accountDatabase)
    {lo hi : Nat} : ¬ Vanished (platform fido) E lo hi aliceSid := by
  rintro ⟨t, sid, e, -, -, hSame, hError, hGone⟩
  have hKeys : (cstr sid).map towlower = aliceSid.map towlower := wcsicmpEq_iff.mp hSame
  rw [hAccounts] at hError
  have hComputer : accountDatabase.computerName = .ok (wtext "PC") := rfl
  unfold resolveLocalSid at hError
  rw [hComputer] at hError
  dsimp only at hError
  rw [if_neg (by decide)] at hError
  cases hString : (platform fido).isStringSid (cstr sid) with
  | false =>
      rw [hString] at hError
      obtain rfl : ERROR_INVALID_PARAMETER = e := Except.error.inj hError
      exact absurd hGone (by decide)
  | true =>
      have hAlice : accountDatabase.lookupAccountSid aliceSid =
          .ok { domain := wtext "PC", isUser := true, sid := .ok aliceSid, name := wtext "alice" } := by
        unfold accountDatabase
        dsimp only
        exact if_pos rfl
      rw [hString, eq_aliceSid hString hKeys, hAlice, if_neg (by decide)] at hError
      dsimp only at hError
      rw [if_neg (by decide)] at hError
      cases hError

/-- The second removal does not bring the first key back, and the account is there. -/
theorem not_undoes_removes {b : Broker} (hAccounts : ∀ t, E.accounts t = accountDatabase) :
    ¬ Undoes (platform {}) E b (removes secondId) aliceSid (.removed firstId) := by
  rintro (⟨caller, request, ⟨pipe, input, output, hEvent, hOpen, -⟩, hReverts⟩ | hVanished)
  · obtain ⟨session, registration, hMay, -⟩ := hReverts
    cases hEvent
    have hField := removeText_fields.2.2.2.1
    rw [openRequest_removeSecond] at hOpen
    generalize parsed (removeText secondId) = parsedRequest at hOpen hField
    cases hOpen
    have hSame : text "remove_with_password" = text "commit_registration" :=
      Except.ok.inj (hField.symm.trans hMay.operation)
    exact absurd hSame (by decide)
  · exact not_vanished_alice hAccounts hVanished

theorem distinct_twoKeys (file : VaultFile) (v : Vault) (hKept : VaultFile.Kept file)
    (hVault : vaultIn (platform {}) twoKeys.machine.disk file = some v) :
    DistinctSids v.accounts := by
  have hBoth : ((vaultIn (platform {}) twoKeys.machine.disk .primary).all fun v =>
      decide ((v.accounts.map sidKey).Nodup)) = true ∧
        vaultIn (platform {}) twoKeys.machine.disk .backup = none := by
    decide +kernel
  rcases hKept with rfl | rfl
  · have hPrimary := hBoth.1
    rw [hVault] at hPrimary
    have hNodup : (v.accounts.map sidKey).Nodup := of_decide_eq_true hPrimary
    exact hNodup
  · cases hVault.symm.trans hBoth.2

/-- The load returned the backup. -/
def LogEntry.fellBack : LogEntry → Bool
  | .loaded .backup _ => true
  | _ => false

/-- The first key stays removed, also over a restart. -/
theorem acknowledged_changes_last_example :
    ∃ v, vaultIn (platform {}) (run (platform {}) calm twoKeys
        ([] ++ removes firstId :: [.restart])).machine.disk .primary = some v ∧
      (VaultChange.removed firstId).Present (accountOf aliceSid v.accounts) := by
  have hInternal : ∀ e ∈ [] ++ removes firstId :: [.restart], e.Internal := by
    intro e he content hTamper
    subst hTamper
    simp [removes] at he
  have hRun : (serve (platform {}) calm alicePipe (removeText firstId) twoKeys).1 =
        some (text "\x7b\"ok\":true\x7d", true) ∧
      (vaultIn (platform {}) (run (platform {}) calm twoKeys
        ([] ++ removes firstId :: [.restart])).machine.disk .primary).isSome = true ∧
      (entriesSince (step (platform {}) calm twoKeys (removes firstId)).machine
        (run (platform {}) calm twoKeys ([] ++ removes firstId :: [.restart])).machine).all
          (fun entry => !LogEntry.fellBack entry) = true := by
    decide +kernel
  obtain ⟨v, hVault⟩ := Option.isSome_iff_exists.mp hRun.2.1
  refine ⟨v, hVault, ?_⟩
  refine (acknowledged_changes_last (transcodes {}) (protects {}) (parsesDumps {}) (strictUtf8 {})
    (fun _ => rfl) distinct_twoKeys hInternal).2 aliceSid (.removed firstId) _
    (acknowledges_removes hRun.1) ?_ ?_ v (.inl hVault)
  · -- a restart undoes nothing
    rintro pre e' post hSplit
    obtain ⟨rfl, rfl⟩ : pre = [] ∧ e' = .restart := by
      rcases pre with _ | ⟨first, pre⟩
      · exact ⟨rfl, (List.cons.inj hSplit).1.symm⟩
      · simp at hSplit
    rintro (⟨caller, request, ⟨pipe, input, output, hEvent, -⟩, -⟩ | hVanished)
    · cases hEvent
    · exact not_vanished_alice (fun _ => rfl) hVanished
  · -- and loads the primary file
    intro w hMem
    have hEntry := List.all_eq_true.mp hRun.2.2 _ hMem
    cases hEntry

/-- The first key is there again, although its removal was acknowledged: the second
removal loaded the backup from before and saved it. -/
theorem acknowledged_changes_last_counterexample :
    ¬ ∀ (P : Platform) (E : Environment) (b₀ : Broker) (e : Event) (mid : List Event) (s : WString)
      (change : VaultChange) (m : Machine), P.Transcodes → P.Protects → P.ParsesDumps →
      P.StrictUtf8 → WritesSucceed E →
      (∀ file v, VaultFile.Kept file → vaultIn P b₀.machine.disk file = some v →
        DistinctSids v.accounts) →
      (∀ e' ∈ e :: mid, e'.Internal) → Acknowledges P E b₀ e s change m →
      (∀ pre e' post, mid = pre ++ e' :: post →
        ¬ Undoes P E (run P E b₀ (e :: pre)) e' s change) →
      ∀ v, vaultIn P (run P E b₀ (e :: mid)).machine.disk .primary = some v →
        change.Present (accountOf s v.accounts) := by
  intro h
  have hInternal : ∀ e ∈ removes firstId :: [removes secondId], e.Internal := by
    intro e he content hTamper
    subst hTamper
    simp [removes] at he
  have hRun : (serve (platform {}) busyLater alicePipe (removeText firstId) twoKeys).1 =
        some (text "\x7b\"ok\":true\x7d", true) ∧
      (vaultIn (platform {}) (run (platform {}) busyLater twoKeys
        (removes firstId :: [removes secondId])).machine.disk .primary).any (fun v =>
          (accountOf aliceSid v.accounts).any fun a =>
            a.credentials.any fun c => decide (c.credentialId = firstId)) = true := by
    decide +kernel
  obtain ⟨hOk, hBack⟩ := hRun
  obtain ⟨v, hVault, hAny⟩ := (Option.any_eq_true _ _).mp hBack
  obtain ⟨a, hAccount, hAny⟩ := (Option.any_eq_true _ _).mp hAny
  obtain ⟨c, hc, hId⟩ := List.any_eq_true.mp hAny
  have hPresent := h (platform {}) busyLater twoKeys (removes firstId) [removes secondId] aliceSid
    (.removed firstId) _ (transcodes {}) (protects {}) (parsesDumps {}) (strictUtf8 {}) (fun _ => rfl)
    distinct_twoKeys hInternal (acknowledges_removes hOk) ?_ v hVault
  · exact hPresent a hAccount c hc (of_decide_eq_true hId)
  · rintro pre e' post hSplit
    obtain ⟨rfl, rfl⟩ : pre = [] ∧ e' = removes secondId := by
      rcases pre with _ | ⟨first, pre⟩
      · exact ⟨rfl, (List.cons.inj hSplit).1.symm⟩
      · simp at hSplit
    exact not_undoes_removes fun _ => rfl

end Example

end BrokerService
end WindowsFidoLogon
