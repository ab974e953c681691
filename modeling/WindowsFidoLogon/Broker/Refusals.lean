import WindowsFidoLogon.Broker.Changes
import WindowsFidoLogon.Codec.Verifier
import WindowsFidoLogon.Store.Sparing

/-!
# What a refused request leaves

Every operation of `Handle` makes at most one change that is not a counter, and makes it
last: a request that does not end with a reply has not made it.  A reply always says
`ok`, so a request that is answered with `ok` false left the accounts as its refresh left
them.
-/

namespace WindowsFidoLogon
namespace BrokerService

open Program Text LocalAccount LocalCredentialStore Environment

variable {P : Platform} {E : Environment}

/-! ## Counters -/

/-- An accepted assertion moves on the counter of its credential, and nothing else. -/
theorem advancesOnly_count {v : Vault} {sid : WString} {account : AccountRecord}
    {record : CredentialRecord} {id challenge rpId origin : Bytes} {assertion : FIDOSignResponse}
    {counter : UInt32} (hAccount : accountOf sid v.accounts = some account)
    (hRecord : account.credentials.find? (fun item => item.credentialId == id) = some record)
    (hVerify : FidoVerifier.verifyAssertion P record challenge rpId origin assertion = .ok counter) :
    AdvancesOnly v { v with accounts := upsert { account with
      credentials := setSignCount record.credentialId counter account.credentials } v.accounts } := by
  have hLookup : Keyed.lookup CredentialRecord.credentialId id account.credentials = some record := by
    rw [← hRecord]
    unfold Keyed.lookup
    exact congrFun (congrArg _ (funext fun c => (beq_eq_decide _ _).symm)) _
  have hId : record.credentialId = id := Keyed.key_of_lookup hLookup
  have hCounted : SameButCounters account { account with
      credentials := setSignCount record.credentialId counter account.credentials } := by
    refine ⟨rfl, ?_⟩
    rw [setSignCount_eq_modify, hId]
    refine Keyed.forall₂_modify fun c hc => ?_
    obtain rfl : record = c := Option.some.inj (hLookup.symm.trans hc)
    exact ⟨rfl, FidoVerifier.le_of_verifyAssertion hVerify⟩
  refine ⟨rfl, ?_⟩
  rw [accountOf_eq_lookup] at hAccount
  have hKey : sidKey account = caseKey sid := Keyed.key_of_lookup hAccount
  rw [upsert_eq_put]
  unfold Keyed.put
  rw [show Keyed.lookup sidKey (sidKey account) v.accounts = some account from hKey ▸ hAccount]
  refine Keyed.forall₂_modify fun a ha => ?_
  obtain rfl : account = a := Option.some.inj ((hKey ▸ hAccount).symm.trans ha)
  exact hCounted

/-- Where a vault is stored, a lookup finds what it has. -/
theorem findAccount_of_stored (hReads : ReadsSucceed E) {m : Machine} {v : Vault}
    (hStored : loadedVault P m.disk = some v) (sid : WString) :
    Meets (findAccount P E sid) m fun o n =>
      o = .returned (accountOf sid v.accounts) ∧ Unseen m n := by
  unfold findAccount
  rw [meets_bind]
  refine (loadOrCreate_of_stored hReads hStored).mono ?_
  rintro _ n ⟨rfl, hUnseen⟩
  exact ⟨rfl, hUnseen⟩

section Sparing

variable (hT : P.Transcodes) (hProtects : P.Protects) (hParses : P.ParsesDumps)
  (hReads : ReadsSucceed E)
include hT hProtects hParses hReads

theorem spared_upsertAccount {v : Vault} {account : AccountRecord} {m : Machine}
    (hStored : loadedVault P m.disk = some v)
    (hAdvances : AdvancesOnly v { v with accounts := upsert account v.accounts }) :
    Meets (upsertAccount P E account) m fun o n => o ≠ .stopped → Spared P m n := by
  unfold upsertAccount
  rw [meets_bind]
  have hLater : Meets (loadOrCreate P E) m fun _ n => Later m n := moves_loadOrCreate m
  refine (hLater.and (loadOrCreate_of_stored hReads hStored)).mono ?_
  rintro _ k ⟨hSince, rfl, hUnseen⟩
  have hHere : loadedVault P k.disk = some v := by rw [hUnseen.disk]; exact hStored
  refine (spared_save_advanced hT hProtects hParses hReads hHere hAdvances).mono ?_
  intro o n hSpared hCameBack
  exact (Spared.of_unseen hSince hUnseen).trans (hSpared hCameBack)

theorem spared_verifySessionAssertion {v : Vault} {m : Machine}
    (hStored : loadedVault P m.disk = some v) (session : Session) (value : Json) :
    Meets (verifySessionAssertion P E session value) m fun o n => o ≠ .stopped → Spared P m n := by
  unfold verifySessionAssertion
  rw [meets_bind]
  have hLater : Meets (findAccount P E session.targetSid) m fun _ n => Later m n :=
    transacts_later.findAccount _ m
  refine (hLater.and (findAccount_of_stored hReads hStored session.targetSid)).mono ?_
  rintro _ k ⟨hSince, rfl, hUnseen⟩
  have hStay : Spared P m k := .of_unseen hSince hUnseen
  have hHere : loadedVault P k.disk = some v := by rw [hUnseen.disk]; exact hStored
  dsimp only
  cases hAccount : accountOf session.targetSid v.accounts with
  | none => exact fun _ => hStay
  | some account =>
      dsimp only
      split_ifs
      · exact fun _ => hStay
      cases hAssertion : assertionFromJson value with
      | error what => exact fun _ => hStay
      | ok assertion =>
          rw [ofExcept_ok, pure_bind]
          rcases assertion.assertions with _ | ⟨front, _ | ⟨second, more⟩⟩
          · exact fun _ => hStay
          · dsimp only
            cases hRecord : account.credentials.find?
                (fun item => item.credentialId == front.credentialid) with
            | none => exact fun _ => hStay
            | some record =>
                dsimp only
                cases hVerify : FidoVerifier.verifyAssertion P record session.challenge
                    session.rpId session.origin assertion with
                | error what => exact fun _ => hStay
                | ok counter =>
                    -- the assertion is accepted, and its counter is stored
                    dsimp only
                    rw [meets_bind]
                    refine (spared_upsertAccount hT hProtects hParses hReads hHere
                      (advancesOnly_count hAccount hRecord hVerify)).mono ?_
                    rintro ((e | _) | what | _) n hSpared
                    · exact fun _ => hStay.trans (hSpared nofun)
                    · exact fun _ => hStay.trans (hSpared nofun)
                    · exact fun _ => hStay.trans (hSpared nofun)
                    · exact fun hCameBack => absurd rfl hCameBack
          · exact fun _ => hStay

theorem spares_verifySessionAssertion {A : Except Bytes Unit → Prop} (session : Session)
    (value : Json) : Spares (Spared P) A (verifySessionAssertion P E session value) := by
  intro m
  have hLater : Later m (verifySessionAssertion P E session value m).2 :=
    moves_verifySessionAssertion session value m
  have hSpared : (verifySessionAssertion P E session value m).1 ≠ .stopped →
      Spared P m (verifySessionAssertion P E session value m).2 := fun hCameBack =>
    .of_stored hLater fun v hv _ =>
      spared_verifySessionAssertion hT hProtects hParses hReads hv session value hCameBack
  unfold Meets
  generalize (verifySessionAssertion P E session value m).2 = n at hSpared ⊢
  generalize (verifySessionAssertion P E session value m).1 = o at hSpared ⊢
  rcases o with r | what | _
  · exact fun _ => hSpared nofun
  · exact hSpared nofun
  · trivial

end Sparing

/-! ## The transactions -/

section Transactions

variable (hReads : ReadsSucceed E)
include hReads

theorem spares_findAccount {A : Option AccountRecord → Prop} (sid : WString) :
    Spares (Spared P) A (findAccount P E sid) := by
  unfold findAccount
  refine .bind (spares_load hReads) fun r => ?_
  cases r with
  | error e => exact .pure _
  | ok v => exact .pure _

theorem spares_removeCredential (sid : WString) (credentialId : Bytes) :
    Spares (Spared P) (fun r => r ≠ .ok ()) (removeCredential P E sid credentialId) := by
  unfold removeCredential
  refine .bind (spares_load hReads) fun r => ?_
  cases r with
  | error e => exact .pure _
  | ok v =>
      dsimp only
      cases accountOf sid v.accounts with
      | none => exact .pure _
      | some account =>
          dsimp only
          split_ifs
          · exact .pure _
          · exact .pure _
          · exact spares_save hReads _

theorem spares_setEnforced (sid : WString) (enforced : Bool) :
    Spares (Spared P) (fun r => r ≠ .ok ()) (setEnforced P E sid enforced) := by
  unfold setEnforced
  refine .bind (spares_load hReads) fun r => ?_
  cases r with
  | error e => exact .pure _
  | ok v =>
      dsimp only
      cases accountOf sid v.accounts with
      | none => exact .pure _
      | some account =>
          dsimp only
          split_ifs
          · exact .pure _
          · exact spares_save hReads _

/-- A registration that does not return the number of credentials was not stored. -/
theorem spares_storeRegistration (session : Session) (registration : RegistrationResult) :
    Spares (Spared P) (fun _ => False) (storeRegistration P E session registration) := by
  unfold storeRegistration
  refine .bind (spares_load hReads) fun r => ?_
  cases r with
  | error e => exact .raise _
  | ok v =>
      dsimp only
      split_ifs
      · exact .raise _
      refine .bind (.of_moves fun m => .of_quiet (quiet_utcNow m)) fun createdAt => ?_
      refine .bind (.ofExcept _) fun added => ?_
      refine .bind_of (spares_save hReads _) (fun r hFailed => ?_) fun r hOk => ?_
      · cases r with
        | error e => exact .raise _
        | ok _ => exact absurd rfl hFailed
      · obtain rfl := not_not.mp hOk
        exact ⟨_, rfl, id⟩

end Transactions

/-! ## The operations -/

/-- What holds of the stores of the Broker, before and after. -/
def StoreSpared (P : Platform) (b b' : Broker) : Prop := Spared P b.machine b'.machine

instance : Std.Refl (StoreSpared P) := ⟨fun b => Std.Refl.refl b.machine⟩

instance : IsTrans Broker (StoreSpared P) := ⟨fun _ _ _ h h' => Spared.trans h h'⟩

theorem spares_onMachine {α : Type} {A : α → Prop} {x : Call α} (hx : Spares (Spared P) A x) :
    Spares (StoreSpared P) A (onMachine x) :=
  hx.zoom fun _ _ => rfl

theorem spares_onMachine_quiet {α : Type} {A : α → Prop} {x : Call α} (hx : Moves Quiet x) :
    Spares (StoreSpared P) A (onMachine x) :=
  spares_onMachine (.of_moves fun m => .of_quiet (hx m))

theorem spares_putSession {A : Bytes → Prop} (session : Session) :
    Spares (StoreSpared P) A (putSession E session) :=
  .of_moves fun b => .of_quiet (meets_putSession session b).1

theorem spares_enterSession {A : Session → Prop} (request : Json) (caller : Caller)
    (kind : SessionKind) : Spares (StoreSpared P) A (enterSession E request caller kind) := by
  unfold enterSession takeSession
  refine .bind (.ofExcept _) fun id => ?_
  refine .bind ?_ fun taken => .ofExcept _
  split_ifs
  · exact .pure _
  refine .bind (.of_moves (.gets _)) fun sessions => ?_
  cases findSession id sessions with
  | none => exact .pure _
  | some session =>
      refine .bind (.of_moves (.update fun b => Std.Refl.refl b.machine)) fun _ => ?_
      exact .bind (spares_onMachine_quiet (quiet_ask _)) fun now => .pure _

/-- The reply is a refusal. -/
def Refuses (j : Json) : Prop :=
  j.valueOr Json.getBool (text "ok") false ≠ .ok true

theorem not_refuses {j : Json} (h : j.valueOr Json.getBool (text "ok") false = .ok true) :
    ¬ Refuses j :=
  not_not.mpr h

theorem not_refuses_okReply : ¬ Refuses okReply := not_refuses rfl

/-- An operation that ends with a transaction and replies `ok` if that went through. -/
theorem spares_conclude {x : Call (Except DWORD Unit)} {f : Except DWORD Unit → BrokerCall Json}
    (hx : Spares (Spared P) (fun r => r ≠ .ok ()) x) (hOk : f (.ok ()) = Pure.pure okReply)
    (hError : ∀ e, ∃ what, f (.error e) = Program.raise what) :
    Spares (StoreSpared P) Refuses (onMachine x >>= f) := by
  refine .bind_of (spares_onMachine hx) (fun r hFailed => ?_) fun r hDone => ?_
  · cases r with
    | error e =>
        obtain ⟨what, hWhat⟩ := hError e
        rw [hWhat]
        exact .raise what
    | ok _ => exact absurd rfl hFailed
  · obtain rfl := not_not.mp hDone
    exact ⟨okReply, hOk, not_refuses_okReply⟩

section Operations

variable (caller : Caller) (request : Json)

theorem spares_challengeAccount (sid : WString) (v : Vault) (account : AccountRecord) :
    Spares (StoreSpared P) Refuses (challengeAccount E caller sid v account) := by
  unfold challengeAccount
  refine .bind (spares_onMachine_quiet (quiet_newSession _ _ _ _)) fun session => ?_
  exact .bind (spares_putSession session) fun id => .pure_of_not (not_refuses rfl)

section Reading

variable (hReads : ReadsSucceed E)
include hReads

theorem spares_status : Spares (StoreSpared P) Refuses (status P E caller request) := by
  unfold status
  refine .bind (.ofExcept _) fun sid => ?_
  split_ifs
  · exact .raise _
  refine .bind (spares_onMachine (spares_findAccount hReads sid)) fun found => ?_
  cases found with
  | none => exact .pure_of_not (not_refuses rfl)
  | some account => exact .pure_of_not (not_refuses rfl)

theorem spares_beginAuth (v : Vault) :
    Spares (StoreSpared P) Refuses (beginAuth P E caller request v) := by
  unfold beginAuth
  refine .bind (.ofExcept _) fun sid => ?_
  split_ifs
  · exact .raise _
  refine .bind (spares_onMachine (spares_findAccount hReads sid)) fun found => ?_
  cases found.filter (·.enforced) with
  | none =>
      refine .bind (spares_onMachine_quiet (quiet_isSidEnforced _)) fun listed => ?_
      split_ifs
      · exact .raise _
      · exact .pure_of_not (not_refuses rfl)
  | some account =>
      dsimp only
      split_ifs
      · exact .raise _
      · exact spares_challengeAccount caller sid v account

theorem spares_beginTest (v : Vault) :
    Spares (StoreSpared P) Refuses (beginTest P E caller request v) := by
  unfold beginTest
  refine .bind (.ofExcept _) fun sid => ?_
  split_ifs
  · exact .raise _
  refine .bind (spares_onMachine (spares_findAccount hReads sid)) fun found => ?_
  cases found with
  | none => exact .raise _
  | some account =>
      dsimp only
      split_ifs
      · exact .raise _
      · exact spares_challengeAccount caller sid v account

theorem spares_beginRegistration (v : Vault) :
    Spares (StoreSpared P) Refuses (beginRegistration P E caller request v) := by
  unfold beginRegistration
  refine .bind (.ofExcept _) fun sid => .bind (.ofExcept _) fun username => ?_
  refine .bind (.ofExcept _) fun password => ?_
  refine .bind (spares_onMachine_quiet (quiet_requireLocalPassword _ _ _ _ _ _)) fun name => ?_
  refine .bind (spares_onMachine (spares_findAccount hReads sid)) fun found => ?_
  split_ifs
  · exact .raise _
  refine .bind (.ofExcept _) fun label => ?_
  refine .bind (spares_onMachine_quiet (quiet_newSession _ _ _ _)) fun blank => ?_
  refine .bind (spares_putSession _) fun id => ?_
  refine .bind (spares_onMachine_quiet (quiet_createRegistrationChallenge _ _)) fun registration => ?_
  exact .pure_of_not (not_refuses rfl)

theorem spares_commitRegistration :
    Spares (StoreSpared P) Refuses (commitRegistration P E caller request) := by
  unfold commitRegistration
  refine .bind (spares_enterSession _ _ _) fun session => ?_
  refine .bind (.ofExcept _) fun attestation => .bind (.ofExcept _) fun clientData => ?_
  refine .bind (.ofExcept _) fun registration => ?_
  refine .bind_of (spares_onMachine (spares_storeRegistration hReads session registration))
    (fun _ h => h.elim) fun count _ => ?_
  exact ⟨_, rfl, not_refuses rfl⟩

theorem spares_beginRemove (v : Vault) :
    Spares (StoreSpared P) Refuses (beginRemove P E caller request v) := by
  unfold beginRemove
  refine .bind (.ofExcept _) fun sid => .bind (.ofExcept _) fun username => ?_
  refine .bind (.ofExcept _) fun password => ?_
  refine .bind (spares_onMachine_quiet (quiet_requireLocalPassword _ _ _ _ _ _)) fun name => ?_
  refine .bind (spares_onMachine (spares_findAccount hReads sid)) fun found => ?_
  refine .bind (.ofExcept _) fun removable => ?_
  refine .bind (spares_onMachine_quiet (quiet_newSession _ _ _ _)) fun blank => ?_
  exact .bind (spares_putSession _) fun id => .pure_of_not (not_refuses rfl)

theorem spares_removeWithPassword :
    Spares (StoreSpared P) Refuses (removeWithPassword P E caller request) := by
  unfold removeWithPassword
  refine .bind (.ofExcept _) fun sid => .bind (.ofExcept _) fun username => ?_
  refine .bind (.ofExcept _) fun password => ?_
  refine .bind (spares_onMachine_quiet (quiet_requireLocalPassword _ _ _ _ _ _)) fun name => ?_
  refine .bind (spares_onMachine (spares_findAccount hReads sid)) fun found => ?_
  refine .bind (.ofExcept _) fun removable => ?_
  exact spares_conclude (spares_removeCredential hReads sid removable.2) rfl fun e => ⟨_, rfl⟩

theorem spares_setEnforcement :
    Spares (StoreSpared P) Refuses (setEnforcement P E caller request) := by
  unfold setEnforcement
  split_ifs
  · exact .raise _
  refine .bind (.ofExcept _) fun sid => .bind (.ofExcept _) fun username => ?_
  refine .bind (.ofExcept _) fun password => ?_
  refine .bind (spares_onMachine_quiet (quiet_requireLocalPassword _ _ _ _ _ _)) fun name => ?_
  refine .bind (.ofExcept _) fun enabled => ?_
  refine .bind (spares_onMachine_quiet (quiet_requireNoFilterConflict _ _)) fun _ => ?_
  exact spares_conclude (spares_setEnforced hReads sid enabled) rfl fun e => ⟨_, rfl⟩

end Reading

section Verifying

variable (hT : P.Transcodes) (hProtects : P.Protects) (hParses : P.ParsesDumps)
  (hReads : ReadsSucceed E)
include hT hProtects hParses hReads

theorem spares_finishAuth : Spares (StoreSpared P) Refuses (finishAuth P E caller request) := by
  unfold finishAuth
  refine .bind (spares_enterSession _ _ _) fun session => .bind (.ofExcept _) fun assertion => ?_
  refine .bind (spares_onMachine (spares_verifySessionAssertion hT hProtects hParses hReads session
    assertion)) fun verified => ?_
  exact .bind (.ofExcept _) fun _ => .pure_of_not not_refuses_okReply

theorem spares_finishRemove : Spares (StoreSpared P) Refuses (finishRemove P E caller request) := by
  unfold finishRemove
  refine .bind (spares_enterSession _ _ _) fun session => .bind (.ofExcept _) fun assertion => ?_
  refine .bind (spares_onMachine (spares_verifySessionAssertion hT hProtects hParses hReads session
    assertion)) fun verified => ?_
  refine .bind (.ofExcept _) fun _ => ?_
  exact spares_conclude (spares_removeCredential hReads _ _) rfl fun e => ⟨_, rfl⟩

/-- After its refresh, a request that is refused made no change but to a counter. -/
theorem spares_dispatch (operation : Bytes) :
    Spares (StoreSpared P) Refuses (dispatch P E caller request operation) := by
  unfold dispatch
  by_cases hStatus : operation = text "status"
  · rw [if_pos hStatus]
    exact spares_status caller request hReads
  rw [if_neg hStatus]
  refine .bind (spares_onMachine (spares_load hReads)) fun r => ?_
  cases r with
  | error e => exact .raise _
  | ok v =>
      dsimp only
      split_ifs
      · exact spares_beginAuth caller request hReads v
      · exact spares_finishAuth caller request hT hProtects hParses hReads
      · exact spares_beginTest caller request hReads v
      · exact spares_beginRegistration caller request hReads v
      · exact spares_commitRegistration caller request hReads
      · exact spares_beginRemove caller request hReads v
      · exact spares_removeWithPassword caller request hReads
      · exact spares_finishRemove caller request hT hProtects hParses hReads
      · exact spares_setEnforcement caller request hReads
      · exact .raise _

end Verifying

end Operations

/-! ## The refresh -/

/-- The SIDs after a refresh are SIDs from before. -/
theorem Refreshed.sid {lo hi : Nat} {A A' : List AccountRecord} (h : Refreshed P E lo hi A A') :
    ∀ a' ∈ A', ∃ a ∈ A, a'.sid = a.sid := by
  induction h with
  | nil => exact fun a' ha' => absurd ha' List.not_mem_nil
  | drop _ _ ih =>
      intro a' ha'
      obtain ⟨a, ha, hSame⟩ := ih a' ha'
      exact ⟨a, List.mem_cons_of_mem _ ha, hSame⟩
  | keep name _ ih =>
      intro a' ha'
      rcases List.mem_cons.mp ha' with rfl | ha'
      · exact ⟨_, List.mem_cons_self, rfl⟩
      · obtain ⟨a, ha, hSame⟩ := ih a' ha'
        exact ⟨a, List.mem_cons_of_mem _ ha, hSame⟩

/-- A refresh that went through leaves a vault under its own policy. -/
theorem stored_of_refresh (hT : P.Transcodes) (hProtects : P.Protects) (hParses : P.ParsesDumps)
    (hReads : ReadsSucceed E) {v : Vault} {m n : Machine} (hStored : loadedVault P m.disk = some v)
    (hRefreshed : refreshLocalAccounts P E m = (.returned (.ok ()), n))
    (hIntact : IntactReadable P n.disk) :
    ∃ w, loadedVault P n.disk = some w ∧ n.registry = publishedPolicy w := by
  unfold refreshLocalAccounts at hRefreshed
  obtain ⟨r, k, hLoad, hRefreshed⟩ := bind_returned_iff.mp hRefreshed
  obtain ⟨hLoaded, hUnseen⟩ := (loadOrCreate_of_stored hReads hStored).of_eq hLoad
  obtain rfl := Outcome.returned.inj hLoaded
  dsimp only at hRefreshed
  obtain ⟨r, l, hLoop, hRefreshed⟩ := bind_returned_iff.mp hRefreshed
  rcases r with e | ⟨A', changed⟩
  · cases hRefreshed
  obtain ⟨hAccounts, hSame, hQuiet⟩ := refreshed_of_refreshAccounts hLoop
  have hHere : loadedVault P l.disk = some v := by
    rw [hQuiet.disk, hUnseen.disk]
    exact hStored
  dsimp only at hRefreshed
  split_ifs at hRefreshed with hChanged
  · have hText : ∀ a' ∈ A', WellFormed P a'.sid := by
      intro a' ha'
      obtain ⟨a, ha, hSid⟩ := hAccounts.sid a' ha'
      rw [hSid]
      exact (wellFormedText_of_loadedVault hT hStored a ha).1
    obtain ⟨_, hw, hPolicy⟩ :=
      stored_of_save hT hProtects hParses hReads hHere hText hRefreshed hIntact
    exact ⟨_, hw, hPolicy⟩
  · -- nothing changed, and the policy was published again
    obtain rfl := hSame (by simpa using hChanged)
    obtain ⟨hDisk, _, _, hPolicy⟩ := (meets_synchronizeEnforcedRegistry _ l).of_eq hRefreshed
    exact ⟨v, by rw [hDisk]; exact hHere, hPolicy⟩

/-- A refresh that failed leaves the vault it found. -/
theorem stored_of_refresh_failed (hReads : ReadsSucceed E) {v : Vault} {m : Machine}
    (hStored : loadedVault P m.disk = some v) :
    Meets (refreshLocalAccounts P E) m fun o n =>
      o ≠ .returned (.ok ()) → o ≠ .stopped → failures n = failures m →
        loadedVault P n.disk = some v := by
  unfold refreshLocalAccounts
  rw [meets_bind]
  refine (loadOrCreate_of_stored hReads hStored).mono ?_
  rintro _ k ⟨rfl, hUnseen⟩
  dsimp only
  rw [meets_bind]
  have hQuiet : Meets (refreshAccounts P E v.accounts) k fun _ l => Quiet k l :=
    quiet_refreshAccounts v.accounts k
  refine hQuiet.mono ?_
  intro r l hQuiet
  have hHere : loadedVault P l.disk = some v := by
    rw [hQuiet.disk, hUnseen.disk]
    exact hStored
  have hFailures : failures l = failures m :=
    (Unseen.of_quiet hQuiet).failures.trans hUnseen.failures
  rcases r with (e | ⟨A', changed⟩) | what | _
  · exact fun _ _ _ => hHere
  · dsimp only
    split_ifs
    · have hEnds : Meets (save P E { v with accounts := A' }) l
          (Ended P v { v with accounts := A' } (replacement P v { v with accounts := A' } l.tick) l) :=
        save_ends hReads hHere
      obtain ⟨w, hw, hEnd⟩ := hEnds
      unfold Meets
      generalize (save P E { v with accounts := A' } l).2 = n at hw hEnd ⊢
      generalize (save P E { v with accounts := A' } l).1 = o at hEnd ⊢
      intro hFailed hCameBack hCompensated
      rcases o with (e | _) | what | _
      · rw [hw, (hEnd.2 (hCompensated.trans hFailures.symm)).1]
      · exact absurd rfl hFailed
      · rw [hw, hEnd.1]
      · exact absurd rfl hCameBack
    · -- publishing the policy does not touch the files
      intro _ _ _
      rw [(meets_synchronizeEnforcedRegistry (E := E) { v with accounts := A' } l).1]
      exact hHere
  · exact fun _ _ _ => hHere
  · exact fun _ hCameBack => absurd rfl hCameBack

/-! ## Whole requests -/

/-- `Handle` was reached at `m`, and its refresh went through and left `n`. -/
structure RefreshedTo (P : Platform) (E : Environment) (pipe : PipeClient) (input : Bytes)
    (m n : Machine) : Prop where
  opened : ∃ caller request, openRequest P pipe input = .ok (caller, request)
  refreshed : refreshLocalAccounts P E m = (.returned (.ok ()), n)

/-- What a refused request leaves of a store that was refreshed to `n`: its vault, but for
counters that moved on, under the policy that belongs to it. -/
def LeavesPolicy (P : Platform) (n n' : Machine) : Prop :=
  ∃ v w, loadedVault P n.disk = some v ∧ loadedVault P n'.disk = some w ∧ AdvancesOnly v w ∧
    n'.registry = publishedPolicy v

theorem refused_leaves_policy (hT : P.Transcodes) (hProtects : P.Protects) (hParses : P.ParsesDumps)
    (hReads : ReadsSucceed E) {pipe : PipeClient} {input output : Bytes} {b b' : Broker} {v : Vault}
    (hStored : loadedVault P b.machine.disk = some v)
    (hIntact : ∀ n, RefreshedTo P E pipe input b.machine n → IntactReadable P n.disk)
    (hRefused : processRequest P E pipe input b = (.returned (output, false), b'))
    (hCompensated : failures b'.machine = failures b.machine) :
    (∀ n, RefreshedTo P E pipe input b.machine n → LeavesPolicy P n b'.machine) ∧
      ((∀ n, ¬ RefreshedTo P E pipe input b.machine n) →
        loadedVault P b'.machine.disk = some v) := by
  rw [processRequest_apply] at hRefused
  cases hOpen : openRequest P pipe input with
  | error what =>
      -- the request never reached `Handle`
      have hAnswer : answer P E pipe input b = (.threw what, b) := by
        unfold answer
        rw [hOpen]
        rfl
      rw [hAnswer] at hRefused
      obtain rfl := (Prod.mk.inj hRefused).2
      refine ⟨?_, fun _ => hStored⟩
      rintro n ⟨⟨_, _, hOpened⟩, _⟩
      rw [hOpen] at hOpened
      cases hOpened
  | ok opened =>
      obtain ⟨caller, request⟩ := opened
      rw [answer_of_openRequest hOpen] at hRefused
      have hFailed := stored_of_refresh_failed (E := E) hReads hStored
      have hLater := transacts_later.refreshLocalAccounts (P := P) (E := E) b.machine
      unfold handle at hRefused
      rw [bind_apply] at hRefused
      have hZoom : onMachine (refreshLocalAccounts P E) b =
          ((refreshLocalAccounts P E b.machine).1,
            b.setMachine (refreshLocalAccounts P E b.machine).2) := rfl
      rw [hZoom] at hRefused
      unfold Meets at hFailed
      rcases hRefresh : refreshLocalAccounts P E b.machine with ⟨(e | _) | what | _, n⟩ <;>
        rw [hRefresh] at hRefused hFailed hLater
      · obtain rfl := (Prod.mk.inj hRefused).2
        refine ⟨fun n' h => ?_, fun _ => hFailed nofun nofun hCompensated⟩
        rw [h.refreshed] at hRefresh
        cases hRefresh
      · -- the operation starts from the refreshed store
        have hThis : RefreshedTo P E pipe input b.machine n := ⟨⟨caller, request, hOpen⟩, hRefresh⟩
        refine ⟨fun n' h => ?_, fun hNone => absurd hThis (hNone n)⟩
        obtain rfl : n = n' := by
          have hSame := h.refreshed
          rw [hRefresh] at hSame
          exact (Prod.mk.inj hSame).2
        obtain ⟨w, hw, hPolicy⟩ :=
          stored_of_refresh hT hProtects hParses hReads hStored hRefresh (hIntact n hThis)
        have hSpares : Spares (StoreSpared P) Refuses (do
            let operation ← Program.ofExcept (request.valueOr Json.getString (text "op") [])
            dispatch P E caller request operation) :=
          .bind (.ofExcept _) fun operation =>
            spares_dispatch caller request hT hProtects hParses hReads operation
        have hEnd := hSpares (b.setMachine n)
        have hSpared : Spared P n b'.machine := by
          unfold Meets at hEnd
          dsimp only at hRefused
          rcases hDone : (do
            let operation ← Program.ofExcept (request.valueOr Json.getString (text "op") [])
            dispatch P E caller request operation : BrokerCall Json) (b.setMachine n) with
            ⟨j | what | _, c⟩ <;> rw [hDone] at hRefused hEnd
          · obtain ⟨hPrinted, rfl⟩ := Prod.mk.inj hRefused
            refine hEnd fun hOk => ?_
            rw [(printed_eq_returned.mp hPrinted).2] at hOk
            cases hOk
          · obtain ⟨_, rfl⟩ := Prod.mk.inj hRefused
            exact hEnd
          · cases hRefused
        have hFirst : failures b.machine ≤ failures n := failures_le hLater
        have hSecond := failures_le hSpared.later
        obtain ⟨u, hu, hPolicy', hAdvances⟩ := hSpared.stored w hw hPolicy (by omega)
        exact ⟨w, u, hw, hu, hAdvances, hPolicy'.trans hAdvances.publishedPolicy⟩
      · obtain rfl := (Prod.mk.inj hRefused).2
        refine ⟨fun n' h => ?_, fun _ => hFailed nofun nofun hCompensated⟩
        rw [h.refreshed] at hRefresh
        cases hRefresh
      · cases hRefused

section Example

open Reference

/-- The reply to a request that finishes a session which was never begun. -/
def refusal : Bytes :=
  text "\x7b\"error\":\"unknown or already-used session\",\"ok\":false\x7d"

theorem finishText_refused :
    (processRequest keyPlatform calm alicePipe finishText keyBroker).1 = .returned (refusal, false) ∧
      failures (processRequest keyPlatform calm alicePipe finishText keyBroker).2.machine =
        failures keyBroker.machine := by
  decide +kernel

theorem stored_keyBroker : loadedVault keyPlatform keyBroker.machine.disk = some keyVault := by
  decide +kernel

theorem intact_refreshed {n : Machine}
    (h : RefreshedTo keyPlatform calm alicePipe finishText keyBroker.machine n) :
    IntactReadable keyPlatform n.disk := by
  intro v tick content _ hPrimary
  have hFile : (refreshLocalAccounts keyPlatform calm keyBroker.machine).2.disk .primary =
      some (vaultFile keyVault) := by decide +kernel
  have hShort : (vaultFile keyVault).length ≤ maximumFileBytes := by decide +kernel
  rw [h.refreshed] at hFile
  obtain rfl := Option.some.inj (hPrimary.symm.trans hFile)
  exact hShort

/-- The request got as far as its session, and left the accounts as the refresh left
them. -/
theorem refused_leaves_policy_example :
    ∃ n b', RefreshedTo keyPlatform calm alicePipe finishText keyBroker.machine n ∧
      processRequest keyPlatform calm alicePipe finishText keyBroker =
        (.returned (refusal, false), b') ∧
      LeavesPolicy keyPlatform n b'.machine := by
  have hRefreshed : (refreshLocalAccounts keyPlatform calm keyBroker.machine).1 =
      .returned (.ok ()) := by decide +kernel
  rcases hRefresh : refreshLocalAccounts keyPlatform calm keyBroker.machine with ⟨r, n⟩
  rw [hRefresh] at hRefreshed
  obtain rfl : r = .returned (.ok ()) := hRefreshed
  have hReached : RefreshedTo keyPlatform calm alicePipe finishText keyBroker.machine n :=
    ⟨⟨_, _, openRequest_finishText⟩, hRefresh⟩
  have hEnd := finishText_refused
  rcases hRun : processRequest keyPlatform calm alicePipe finishText keyBroker with ⟨o, b'⟩
  rw [hRun] at hEnd
  obtain ⟨rfl, hFailures⟩ := hEnd
  exact ⟨n, b', hReached, rfl, (refused_leaves_policy (transcodes _) (protects _) (parsesDumps _)
    (fun _ _ => rfl) stored_keyBroker (fun _ => intact_refreshed) hRun hFailures).1 n hReached⟩

end Example

end BrokerService
end WindowsFidoLogon
