import WindowsFidoLogon.Broker.FinishAuth
import WindowsFidoLogon.Store.Accounts

/-!
# The vault as the Broker changes it

Over the files and the steps of `Save` lies a simple picture: there are tables of
accounts that a load may return, and a request changes such a table in one of five
ways, each with the checks that were passed for it.  `Change` is this picture.

A `Regime` says which tables a load may return, and what it takes for this to be right.
What the changes keep of all these tables, a request keeps (`Regime.keeps`), whatever
happens in between; which faults a regime allows is a matter of its instances.
-/

namespace WindowsFidoLogon
namespace BrokerService

open Program Text LocalAccount LocalCredentialStore Environment Handling

variable {P : Platform} {E : Environment}

/-! ## Refreshed accounts -/

/-- At some call from tick `lo` on and before `hi`, `s` was the SID of no local user. -/
def Vanished (P : Platform) (E : Environment) (lo hi : Nat) (s : WString) : Prop :=
  ∃ t sid e, lo ≤ t ∧ t < hi ∧ wcsicmpEq sid s = true ∧
    resolveLocalSid P (E.accounts t) sid = .error e ∧
    (e = ERROR_NONE_MAPPED ∨ e = ERROR_NO_SUCH_USER)

/-- What `RefreshLocalAccounts` makes of the accounts: those that vanished are dropped,
and the others kept under their current names. -/
inductive Refreshed (P : Platform) (E : Environment) (lo hi : Nat) :
    List AccountRecord → List AccountRecord → Prop
  | nil : Refreshed P E lo hi [] []
  | drop {a : AccountRecord} {A A' : List AccountRecord} :
      Vanished P E lo hi a.sid → Refreshed P E lo hi A A' → Refreshed P E lo hi (a :: A) A'
  | keep {a : AccountRecord} {A A' : List AccountRecord} (name : WString) :
      Refreshed P E lo hi A A' → Refreshed P E lo hi (a :: A) ({ a with username := name } :: A')

theorem Vanished.mono {lo lo' hi hi' : Nat} (hLo : lo' ≤ lo) (hHi : hi ≤ hi') {s : WString}
    (h : Vanished P E lo hi s) : Vanished P E lo' hi' s := by
  obtain ⟨t, sid, e, hFrom, hTo, h⟩ := h
  exact ⟨t, sid, e, hLo.trans hFrom, hTo.trans_le hHi, h⟩

theorem Refreshed.mono {lo lo' hi hi' : Nat} (hLo : lo' ≤ lo) (hHi : hi ≤ hi')
    {A A' : List AccountRecord} (h : Refreshed P E lo hi A A') : Refreshed P E lo' hi' A A' := by
  induction h with
  | nil => exact .nil
  | drop hVanished _ ih => exact .drop (hVanished.mono hLo hHi) ih
  | keep name _ ih => exact .keep name ih

/-- The keys that remain are keys there were. -/
theorem Refreshed.sublist {lo hi : Nat} {A A' : List AccountRecord} (h : Refreshed P E lo hi A A') :
    (A'.map sidKey).Sublist (A.map sidKey) := by
  induction h with
  | nil => exact List.Sublist.slnil
  | drop _ _ ih => exact ih.cons _
  | keep name _ ih => exact ih.cons_cons _

theorem Refreshed.distinct {lo hi : Nat} {A A' : List AccountRecord} (h : Refreshed P E lo hi A A')
    (hDistinct : DistinctSids A) : DistinctSids A' :=
  List.Nodup.sublist h.sublist hDistinct

/-- A refresh keeps an account but for its name, or drops it because it vanished. -/
theorem Refreshed.accountOf {lo hi : Nat} {A A' : List AccountRecord} (h : Refreshed P E lo hi A A')
    (hDistinct : DistinctSids A) (s : WString) :
    (∃ name, LocalCredentialStore.accountOf s A' =
        (LocalCredentialStore.accountOf s A).map fun a => { a with username := name }) ∨
      LocalCredentialStore.accountOf s A' = none ∧ Vanished P E lo hi s := by
  induction h with
  | nil => exact .inl ⟨[], rfl⟩
  | @drop a A A' hVanished hRest ih =>
      obtain ⟨hFresh, hDistinct⟩ := Keyed.Distinct.cons_iff.mp hDistinct
      simp only [accountOf_eq_lookup, Keyed.lookup_cons] at ih ⊢
      by_cases ha : sidKey a = caseKey s
      · -- the account of `s` itself was dropped
        refine .inr ⟨Keyed.lookup_eq_none_iff.mpr fun b hb hSame => ?_, ?_⟩
        · have hOld : sidKey b ∈ A.map sidKey := hRest.sublist.subset (List.mem_map_of_mem hb)
          obtain ⟨c, hc, hKey⟩ := List.mem_map.mp hOld
          exact hFresh c hc (hKey.trans (hSame.trans ha.symm))
        · obtain ⟨t, sid, e, hFrom, hTo, hSid, hError⟩ := hVanished
          exact ⟨t, sid, e, hFrom, hTo, wcsicmpEq_trans hSid (wcsicmpEq_iff.mpr ha), hError⟩
      · rw [if_neg ha]
        exact ih hDistinct
  | @keep a A A' name _ ih =>
      obtain ⟨_, hDistinct⟩ := Keyed.Distinct.cons_iff.mp hDistinct
      simp only [accountOf_eq_lookup, Keyed.lookup_cons] at ih ⊢
      -- an account that is kept is the one looked for, or comes before it
      by_cases ha : sidKey a = caseKey s
      · rw [if_pos ha, if_pos ha]
        exact .inl ⟨name, rfl⟩
      · rw [if_neg ha, if_neg ha]
        exact ih hDistinct

/-- What the loop of `RefreshLocalAccounts` returns. -/
theorem refreshed_of_refreshAccounts {A A' : List AccountRecord} {changed : Bool} {m n : Machine}
    (h : refreshAccounts P E A m = (.returned (.ok (A', changed)), n)) :
    Refreshed P E m.tick n.tick A A' ∧ (changed = false → A' = A) ∧ Quiet m n := by
  induction A generalizing m n A' changed with
  | nil =>
      cases h
      exact ⟨.nil, fun _ => rfl, Std.Refl.refl _⟩
  | cons a A ih =>
      unfold refreshAccounts at h
      obtain ⟨db, k, hDb, h⟩ := bind_returned_iff.mp h
      cases hDb
      cases hResolved : resolveLocalSid P (E.accounts m.tick) a.sid with
      | error e =>
          rw [hResolved] at h
          dsimp only at h
          split_ifs at h with hGone
          · obtain ⟨r, k, hRest, h⟩ := bind_returned_iff.mp h
            cases r with
            | error e' => cases h
            | ok kept =>
                obtain ⟨A'', changed'⟩ := kept
                cases h
                obtain ⟨hRefreshed, _, hQuiet⟩ := ih hRest
                have hNext : m.tick < n.tick := hQuiet.tick_le
                refine ⟨.drop ?_ (hRefreshed.mono (Nat.le_succ _) (le_refl _)), by simp,
                  Trans.trans (Quiet.next m) hQuiet⟩
                exact ⟨m.tick, a.sid, e, le_refl _, hNext, wcsicmpEq_refl _, hResolved, hGone⟩
          · cases h
      | ok name =>
          rw [hResolved] at h
          dsimp only at h
          obtain ⟨r, k, hRest, h⟩ := bind_returned_iff.mp h
          cases r with
          | error e' => cases h
          | ok kept =>
              obtain ⟨A'', changed'⟩ := kept
              obtain ⟨hRefreshed, hSame, hQuiet⟩ := ih hRest
              have hWider := hRefreshed.mono (Nat.le_succ m.tick) (le_refl _)
              have hQuiet' : Quiet m k := Trans.trans (Quiet.next m) hQuiet
              -- the name is replaced unless it is the same but for case
              by_cases hRenamed : (!wcsicmpEq a.username name) = true
              · rw [if_pos hRenamed] at h
                cases h
                exact ⟨.keep name hWider, by simp [hRenamed], hQuiet'⟩
              · rw [if_neg hRenamed] at h
                cases h
                refine ⟨.keep a.username hWider, fun hUnchanged => ?_, hQuiet'⟩
                rw [hSame (by simpa [hRenamed] using hUnchanged)]

/-! ## The five changes -/

/-- The record of a new credential. -/
def newCredential (session : Session) (registration : RegistrationResult) (createdAt : Bytes) :
    CredentialRecord where
  credentialId := registration.credentialId
  cosePublicKey := registration.cosePublicKey
  algorithm := registration.algorithm
  aaguid := registration.aaguid
  label := session.label
  createdAt := createdAt
  signCount := registration.signCount

/-- The end of `storeRegistration`, once the vault is loaded. -/
def storeNew (P : Platform) (E : Environment) (session : Session)
    (registration : RegistrationResult) (createdAt : Bytes) (v : Vault) : Call Nat := do
  let added ← Program.ofExcept (addCredential session (newCredential session registration createdAt) v)
  match ← save P E added.1 with
  | .error _ => Program.raise (text "unable to save registered credential")
  | .ok () => return added.2

theorem storeRegistration_loaded {session : Session} {registration : RegistrationResult}
    {m k : Machine} {v : Vault} (hLoad : loadOrCreate P E m = (.returned (.ok v), k))
    (hNew : isRegistered registration.credentialId v = false) :
    storeRegistration P E session registration m =
      storeNew P E session registration (formatTime (E.systemTime k.tick)) v k.next := by
  unfold storeRegistration
  rw [bind_returned hLoad]
  dsimp only
  rw [if_neg (by simp [hNew])]
  rfl

theorem storeNew_returned {session : Session} {registration : RegistrationResult}
    {createdAt : Bytes} {v v' : Vault} {count : Nat} {n : Machine}
    (hAdded : addCredential session (newCredential session registration createdAt) v =
      .ok (v', count)) (hOk : (save P E v' n).1 = .returned (.ok ())) :
    (storeNew P E session registration createdAt v n).1 = .returned count := by
  unfold storeNew
  rw [hAdded, ofExcept_ok, pure_bind, bind_apply]
  dsimp only
  rcases hCase : save P E v' n with ⟨r, n'⟩
  rw [hCase] at hOk
  cases hOk
  rfl

/-- The changes a request `H` makes to a table of accounts by the time the machine is
`n`.  `Done` says of a removal, a registration or a new enforcement that the request
went on to reply what its operation replies.  An assertion is accepted for an account
of one of the tables that are `Known`, and this is the table that is changed if the
loads are `Steady`. -/
inductive Change (P : Platform) (E : Environment) (H : Handling) (Done : Prop) (n : Machine)
    (Known : List AccountRecord → Prop) (Steady : Prop) :
    List AccountRecord → List AccountRecord → Prop
  /-- an accepted assertion moves the counter of its credential -/
  | count {A B : List AccountRecord} {session : Session} {account : AccountRecord}
      {record : CredentialRecord} {value : Json} {assertion : FIDOSignResponse}
      {front : FIDOAssertionData} {counter : UInt32} :
      Entered E H .authentication session n ∨ Entered E H .removalAuthorization session n →
      H.request.at_ (text "assertion") = .ok value → assertionFromJson value = .ok assertion →
      assertion.assertions = [front] → Known B → (Steady → B = A) →
      accountOf session.targetSid B = some account →
      account.credentials.find? (fun item => item.credentialId == front.credentialid) =
        some record →
      FidoVerifier.verifyAssertion P record session.challenge session.rpId session.origin
        assertion = .ok counter →
      Change P E H Done n Known Steady A (upsert { account with
        credentials := setSignCount record.credentialId counter account.credentials } A)
  /-- a registration adds a credential, and the account if there is none -/
  | register {A : List AccountRecord} {session : Session} {registration : RegistrationResult}
      {createdAt : Bytes} {base : AccountRecord} :
      MayRegister P E H session registration n → Done →
      (∀ a ∈ A, ∀ c ∈ a.credentials, c.credentialId ≠ registration.credentialId) →
      base = (accountOf session.targetSid A).getD
        { sid := session.targetSid, username := session.username } →
      Change P E H Done n Known Steady A (upsert { base with
        username := session.username
        credentials := base.credentials ++ [newCredential session registration createdAt] } A)
  | remove {A : List AccountRecord} {sid : WString} {credentialId : Bytes}
      {account : AccountRecord} :
      MayRemove P E H sid credentialId n → Done → accountOf sid A = some account →
      ¬ (account.enforced = true ∧ account.credentials.length ≤ 1) →
      Change P E H Done n Known Steady A (modifyAccount sid (eraseCredential credentialId) A)
  | enforce {A : List AccountRecord} {sid : WString} {enabled : Bool} {account : AccountRecord} :
      MayEnforce P E H sid enabled n → Done → accountOf sid A = some account →
      Change P E H Done n Known Steady A
        (modifyAccount sid (fun item => { item with enforced := enabled }) A)
  | refresh {A A' : List AccountRecord} :
      Refreshed P E H.before.machine.tick n.tick A A' → Change P E H Done n Known Steady A A'

variable {H : Handling} {Done : Prop}

theorem Change.mono {m n : Machine} {Known Known' : List AccountRecord → Prop} {Steady : Prop}
    {A A' : List AccountRecord} (h : Change P E H Done m Known Steady A A') (hLater : Later m n)
    (hKnown : ∀ B, Known B → Known' B) : Change P E H Done n Known' Steady A A' := by
  cases h with
  | count hEntered hValue hAssertion hOne hB hSteady hAccount hRecord hVerify =>
      exact .count (hEntered.imp (·.mono hLater) (·.mono hLater)) hValue hAssertion hOne
        (hKnown _ hB) hSteady hAccount hRecord hVerify
  | register hMay hDone hNew hBase => exact .register (hMay.mono hLater) hDone hNew hBase
  | remove hMay hDone hAccount hSpare => exact .remove (hMay.mono hLater) hDone hAccount hSpare
  | enforce hMay hDone hAccount => exact .enforce (hMay.mono hLater) hDone hAccount
  | refresh hRefreshed => exact .refresh (hRefreshed.mono (le_refl _) hLater.tick_le)

/-! ## Regimes -/

/-- Which tables of accounts a load may return, at machines that are `Good`.  In an
`Unsure` regime a save may replace a table and fail nevertheless, and one that `Spoils`
may leave anything behind. -/
structure Regime (P : Platform) (E : Environment) where
  Held : Machine → List AccountRecord → Prop
  Good : Machine → Prop
  /-- two loads in a row return the same table -/
  Steady : Prop
  Unsure : Prop
  Spoils : Vault → Prop
  good_of_later : ∀ {m n : Machine}, Later m n → Good n → Good m
  held_quiet : ∀ {m n : Machine}, Quiet m n → ∀ A, Held n A → Held m A
  held_synchronize : ∀ v m, Meets (synchronizeEnforcedRegistry E v) m fun _ n =>
    ∀ A, Held n A → Held m A
  held_load : ∀ m, Meets (loadOrCreate P E) m fun r n => Good n →
    (∀ A, Held n A → Held m A) ∧ ∀ v, r = .returned (.ok v) → Held m v.accounts
  held_save : ∀ v m, Meets (save P E v) m fun r n => Good n → ∀ A, Held n A →
    Held m A ∨ (Unsure ∨ r = .returned (.ok ())) ∧
      (Spoils v ∨ A = v.accounts.map (transcodedAccount P) ∧
        ∀ a ∈ v.accounts, transcoded P a.sid = a.sid)
  steady : ∀ {m k n : Machine} {v w : Vault}, loadOrCreate P E m = (.returned (.ok v), k) →
    loadOrCreate P E k = (.returned (.ok w), n) → Good n → Steady → v.accounts = w.accounts

namespace Regime

variable (R : Regime P E)

/-- Every table that is held at `n` was held at `m`, or is one of these changed and
sealed. -/
structure Moved (H : Handling) (Done : Prop) (m n : Machine) : Prop where
  later : Later m n
  held : R.Good n → ∀ A, R.Held n A → R.Held m A ∨ ∃ v A₀, R.Held m A₀ ∧
    Change P E H Done n (R.Held m) R.Steady A₀ v.accounts ∧
    (R.Spoils v ∨ A = v.accounts.map (transcodedAccount P) ∧
      ∀ a ∈ v.accounts, transcoded P a.sid = a.sid)

variable {R}

theorem moved_of_held {m n : Machine} (hLater : Later m n)
    (hSame : R.Good n → ∀ A, R.Held n A → R.Held m A) : R.Moved H Done m n :=
  ⟨hLater, fun hGood A hA => .inl (hSame hGood A hA)⟩

theorem moved_refl (m : Machine) : R.Moved H Done m m :=
  moved_of_held (Std.Refl.refl m) fun _ _ hA => hA

theorem moved_of_quiet {m n : Machine} (h : Quiet m n) : R.Moved H Done m n :=
  moved_of_held h.later fun _ => R.held_quiet h

/-- What came before and kept the tables does not matter. -/
theorem Moved.after {l m n : Machine} (h : R.Moved H Done m n) (hLater : Later l m)
    (hSame : R.Good m → ∀ A, R.Held m A → R.Held l A) : R.Moved H Done l n := by
  refine ⟨hLater.trans h.later, fun hGood A hA => ?_⟩
  have hBefore := hSame (R.good_of_later h.later hGood)
  rcases h.held hGood A hA with hOld | ⟨v, A₀, hHeld, hChange, hStored⟩
  · exact .inl (hBefore A hOld)
  · exact .inr ⟨v, A₀, hBefore A₀ hHeld, hChange.mono (Std.Refl.refl n) hBefore, hStored⟩

/-- A save of a changed table makes this change, or none. -/
theorem moved_save {v : Vault} {A₀ : List AccountRecord} {m k : Machine} (hLater : Later m k)
    (hSame : R.Good k → ∀ A, R.Held k A → R.Held m A) (hHeld : R.Good k → R.Held m A₀)
    (hChange : ∀ n, Later k n → R.Good k → R.Unsure ∨ (save P E v k).1 = .returned (.ok ()) →
      Change P E H Done n (R.Held m) R.Steady A₀ v.accounts) :
    Meets (save P E v) k fun _ n => R.Moved H Done m n := by
  have hSaved : Later k (save P E v k).2 := steps_later.save v k
  refine ⟨hLater.trans hSaved, fun hGood A hA => ?_⟩
  have hBefore := R.good_of_later hSaved hGood
  rcases R.held_save v k hGood A hA with hOld | ⟨hDone, hStored⟩
  · exact .inl (hSame hBefore A hOld)
  · exact .inr ⟨v, A₀, hHeld hBefore, hChange _ hSaved hBefore hDone, hStored⟩

theorem moved_load (m : Machine) :
    Meets (loadOrCreate P E) m fun _ n => R.Moved H Done m n :=
  moved_of_held (moves_loadOrCreate m) fun hGood => (R.held_load m hGood).1

/-- A vault was loaded at `m`. -/
structure Loaded (R : Regime P E) (m : Machine) (v : Vault) (k : Machine) : Prop where
  load : loadOrCreate P E m = (.returned (.ok v), k)
  later : Later m k
  same : R.Good k → ∀ A, R.Held k A → R.Held m A
  held : R.Good k → R.Held m v.accounts

theorem Loaded.moved {m k : Machine} {v : Vault} (h : R.Loaded m v k) : R.Moved H Done m k :=
  moved_of_held h.later h.same

/-- The common shape of the transactions: load the vault, and go on with it. -/
theorem moved_bind_load {α : Type} {l m : Machine} {f : Except DWORD Vault → Call α}
    (hLater : Later l m) (hSame : R.Good m → ∀ A, R.Held m A → R.Held l A)
    (hError : ∀ e k, ∃ r, f (.error e) k = (r, k))
    (hOk : ∀ v k, R.Loaded m v k → Meets (f (.ok v)) k fun _ n => R.Moved H Done l n) :
    Meets (loadOrCreate P E >>= f) m fun _ n => R.Moved H Done l n := by
  have hLoad := R.held_load m
  have hMoved := moves_loadOrCreate (P := P) (E := E) m
  unfold Meets at hLoad
  rw [meets_bind]
  unfold Meets
  rcases hCase : loadOrCreate P E m with ⟨(e | v) | what | _, k⟩ <;> rw [hCase] at hLoad hMoved
  · obtain ⟨r, hr⟩ := hError e k
    dsimp only
    rw [hr]
    exact (moved_of_held hMoved fun hGood => (hLoad hGood).1).after hLater hSame
  · exact hOk v k ⟨hCase, hMoved, fun hGood => (hLoad hGood).1, fun hGood => (hLoad hGood).2 v rfl⟩
  · exact (moved_of_held hMoved fun hGood => (hLoad hGood).1).after hLater hSame
  · exact (moved_of_held hMoved fun hGood => (hLoad hGood).1).after hLater hSame

/-! ### The transactions -/

theorem moved_refreshLocalAccounts {m : Machine} (hFrom : H.before.machine.tick ≤ m.tick) :
    Meets (refreshLocalAccounts P E) m fun _ n => R.Moved H Done m n := by
  unfold refreshLocalAccounts
  refine moved_bind_load (Std.Refl.refl m) (fun _ _ hA => hA) (fun e k => ⟨_, rfl⟩)
    fun v k hLoaded => ?_
  rw [meets_bind]
  have hQuiet := quiet_refreshAccounts (P := P) (E := E) v.accounts k
  unfold Meets
  rcases hCase : refreshAccounts P E v.accounts k with ⟨(e | ⟨A', changed⟩) | what | _, n⟩ <;>
    rw [hCase] at hQuiet
  · exact (moved_of_quiet hQuiet).after hLoaded.later hLoaded.same
  · obtain ⟨hRefreshed, _, _⟩ := refreshed_of_refreshAccounts hCase
    have hBack : R.Good n → R.Good k := R.good_of_later hQuiet.later
    have hSame : R.Good n → ∀ A, R.Held n A → R.Held m A := fun hGood A hA =>
      hLoaded.same (hBack hGood) A (R.held_quiet hQuiet A hA)
    have hLater : Later m n := hLoaded.later.trans hQuiet.later
    dsimp only
    -- a changed vault is saved; otherwise only the policy is published again
    split_ifs
    · have hHeld : R.Good n → R.Held m v.accounts := fun hGood => hLoaded.held (hBack hGood)
      refine moved_save hLater hSame hHeld fun n' hLater' _ _ => .refresh ?_
      exact hRefreshed.mono (hFrom.trans hLoaded.later.tick_le) hLater'.tick_le
    · refine moved_of_held (hLater.trans (steps_later.synchronizeEnforcedRegistry _ n)) fun hGood A hA => ?_
      have hStill := R.held_synchronize { v with accounts := A' } n A hA
      exact hSame (R.good_of_later (steps_later.synchronizeEnforcedRegistry _ n) hGood) A hStill
  · exact (moved_of_quiet hQuiet).after hLoaded.later hLoaded.same
  · exact (moved_of_quiet hQuiet).after hLoaded.later hLoaded.same

/-- A lookup finds the account in a table that is held. -/
theorem held_findAccount (sid : WString) (m : Machine) :
    Meets (findAccount P E sid) m fun r n => Later m n ∧
      (R.Good n → ∀ A, R.Held n A → R.Held m A) ∧
      ∀ a, r = .returned (some a) → ∃ v, R.Loaded m v n ∧ accountOf sid v.accounts = some a := by
  have hLoad := R.held_load m
  have hLater := moves_loadOrCreate (P := P) (E := E) m
  unfold Meets at hLoad
  unfold findAccount
  rw [meets_bind]
  unfold Meets
  rcases hCase : loadOrCreate P E m with ⟨(e | v) | what | _, k⟩ <;> rw [hCase] at hLoad hLater
  · exact ⟨hLater, fun hGood => (hLoad hGood).1, fun a ha => by cases ha⟩
  · refine ⟨hLater, fun hGood => (hLoad hGood).1, fun a ha => ⟨v, ?_, Outcome.returned.inj ha⟩⟩
    exact ⟨hCase, hLater, fun hGood => (hLoad hGood).1, fun hGood => (hLoad hGood).2 v rfl⟩
  · exact ⟨hLater, fun hGood => (hLoad hGood).1, fun a ha => by cases ha⟩
  · exact ⟨hLater, fun hGood => (hLoad hGood).1, fun a ha => by cases ha⟩

theorem moved_upsertAccount {account : AccountRecord} {m k : Machine} (hLater : Later m k)
    (hSame : R.Good k → ∀ A, R.Held k A → R.Held m A)
    (hChange : ∀ w l n, R.Loaded k w l → Later l n → R.Good l →
      Change P E H Done n (R.Held m) R.Steady w.accounts (upsert account w.accounts)) :
    Meets (upsertAccount P E account) k fun _ n => R.Moved H Done m n := by
  unfold upsertAccount
  refine moved_bind_load hLater hSame (fun e l => ⟨_, rfl⟩) fun w l hLoaded => ?_
  have hBack : R.Good l → R.Good k := R.good_of_later hLoaded.later
  exact moved_save (hLater.trans hLoaded.later)
    (fun hGood A hA => hSame (hBack hGood) A (hLoaded.same hGood A hA))
    (fun hGood => hSame (hBack hGood) _ (hLoaded.held hGood))
    fun n hLater' hGood _ => hChange w l n hLoaded hLater' hGood

theorem moved_verifySessionAssertion {session : Session} {value : Json} {m : Machine}
    (hEntered : Entered E H .authentication session m ∨
      Entered E H .removalAuthorization session m)
    (hValue : H.request.at_ (text "assertion") = .ok value) :
    Meets (verifySessionAssertion P E session value) m fun _ n => R.Moved H Done m n := by
  unfold verifySessionAssertion
  rw [meets_bind]
  refine (held_findAccount (R := R) session.targetSid m).mono ?_
  rintro (found | what | _) k ⟨hLater, hSame, hFound⟩
  · have hStay : R.Moved H Done m k := moved_of_held hLater hSame
    cases found with
    | none => exact hStay
    | some account =>
        dsimp only
        split_ifs
        · exact hStay
        cases hAssertion : assertionFromJson value with
        | error what => exact hStay
        | ok assertion =>
            rw [ofExcept_ok, pure_bind]
            rcases hOne : assertion.assertions with _ | ⟨front, _ | ⟨second, more⟩⟩
            · exact hStay
            · dsimp only
              cases hRecord : account.credentials.find?
                  (fun item => item.credentialId == front.credentialid) with
              | none => exact hStay
              | some record =>
                  dsimp only
                  cases hVerify : FidoVerifier.verifyAssertion P record session.challenge
                      session.rpId session.origin assertion with
                  | error what => exact hStay
                  | ok counter =>
                      dsimp only
                      rw [meets_bind]
                      refine (show Meets _ k fun _ n => R.Moved H Done m n from
                        moved_upsertAccount hLater hSame ?_).mono ?_
                      · intro w l n hLoaded hLater' hGood
                        obtain ⟨v, hBefore, hAccount⟩ := hFound account rfl
                        have hSince : Later m n := hLater.trans (hLoaded.later.trans hLater')
                        have hGood' := R.good_of_later hLoaded.later hGood
                        exact .count (hEntered.imp (·.mono hSince) (·.mono hSince)) hValue hAssertion
                          hOne (hBefore.held hGood') (R.steady hBefore.load hLoaded.load hGood)
                          hAccount hRecord hVerify
                      · -- whatever became of the update, the reply does not touch the store
                        rintro ((e | _) | what | _) n hMoved
                        · exact hMoved
                        · exact hMoved
                        · exact hMoved
                        · exact hMoved
            · exact hStay
  · exact moved_of_held hLater hSame
  · exact moved_of_held hLater hSame

theorem moved_removeCredential {sid : WString} {credentialId : Bytes} {m : Machine}
    (hMay : MayRemove P E H sid credentialId m)
    (hDone : R.Unsure ∨ (removeCredential P E sid credentialId m).1 = .returned (.ok ()) → Done) :
    Meets (removeCredential P E sid credentialId) m fun _ n => R.Moved H Done m n := by
  unfold removeCredential
  refine moved_bind_load (Std.Refl.refl m) (fun _ _ hA => hA) (fun e k => ⟨_, rfl⟩)
    fun v k hLoaded => ?_
  dsimp only
  cases hAccount : accountOf sid v.accounts with
  | none => exact hLoaded.moved
  | some account =>
      dsimp only
      split_ifs with hHas hLast
      · exact hLoaded.moved
      · exact hLoaded.moved
      · refine moved_save hLoaded.later hLoaded.same hLoaded.held fun n hLater' _ hSaved => ?_
        refine .remove (hMay.mono (hLoaded.later.trans hLater'))
          (hDone (hSaved.imp_right fun hOk => ?_)) hAccount hLast
        rw [← hOk]
        unfold removeCredential
        rw [bind_returned hLoaded.load]
        dsimp only
        rw [hAccount]
        dsimp only
        rw [if_neg hHas, if_neg hLast]

theorem moved_setEnforced {sid : WString} {enabled : Bool} {m : Machine}
    (hMay : MayEnforce P E H sid enabled m)
    (hDone : R.Unsure ∨ (setEnforced P E sid enabled m).1 = .returned (.ok ()) → Done) :
    Meets (setEnforced P E sid enabled) m fun _ n => R.Moved H Done m n := by
  unfold setEnforced
  refine moved_bind_load (Std.Refl.refl m) (fun _ _ hA => hA) (fun e k => ⟨_, rfl⟩)
    fun v k hLoaded => ?_
  dsimp only
  cases hAccount : accountOf sid v.accounts with
  | none => exact hLoaded.moved
  | some account =>
      dsimp only
      split_ifs with hNone
      · exact hLoaded.moved
      · refine moved_save hLoaded.later hLoaded.same hLoaded.held fun n hLater' _ hSaved => ?_
        refine .enforce (hMay.mono (hLoaded.later.trans hLater'))
          (hDone (hSaved.imp_right fun hOk => ?_)) hAccount
        rw [← hOk]
        unfold setEnforced
        rw [bind_returned hLoaded.load]
        dsimp only
        rw [hAccount]
        dsimp only
        rw [if_neg hNone]

theorem moved_storeRegistration {session : Session} {registration : RegistrationResult}
    {m : Machine} (hMay : MayRegister P E H session registration m)
    (hDone : R.Unsure ∨
      (∃ count, (storeRegistration P E session registration m).1 = .returned count) → Done) :
    Meets (storeRegistration P E session registration) m fun _ n => R.Moved H Done m n := by
  unfold storeRegistration
  refine moved_bind_load (Std.Refl.refl m) (fun _ _ hA => hA) (fun e k => ⟨_, rfl⟩)
    fun v k hLoaded => ?_
  dsimp only
  split_ifs with hOld
  · exact hLoaded.moved
  have hQuiet : Quiet k k.next := Quiet.next k
  have hBack : R.Good k.next → R.Good k := R.good_of_later hQuiet.later
  have hSame : R.Good k.next → ∀ A, R.Held k.next A → R.Held m A := fun hGood A hA =>
    hLoaded.same (hBack hGood) A (R.held_quiet hQuiet A hA)
  have hClock : utcNow E k = (.returned (formatTime (E.systemTime k.tick)), k.next) := rfl
  rw [meets_bind_returned hClock]
  show Meets (storeNew P E session registration (formatTime (E.systemTime k.tick)) v) k.next _
  unfold storeNew
  cases hAdded : addCredential session
      (newCredential session registration (formatTime (E.systemTime k.tick))) v with
  | error what => exact moved_of_held (hLoaded.later.trans hQuiet.later) hSame
  | ok added =>
      obtain ⟨v', count⟩ := added
      obtain ⟨base, hBase, rfl, _⟩ := addCredential_eq hAdded
      rw [ofExcept_ok, pure_bind, meets_bind]
      have hHeld : R.Good k.next → R.Held m v.accounts := fun hGood => hLoaded.held (hBack hGood)
      refine (show Meets _ k.next fun _ n => R.Moved H Done m n from
        moved_save (hLoaded.later.trans hQuiet.later) hSame hHeld
          fun n hLater' _ hSaved => ?_).mono ?_
      · have hSince : Later m n := hLoaded.later.trans (Later.next_trans hLater')
        refine .register (hMay.mono hSince) (hDone (hSaved.imp_right fun hOk => ⟨count, ?_⟩)) ?_ hBase
        · rw [storeRegistration_loaded hLoaded.load (Bool.not_eq_true _ ▸ hOld)]
          exact storeNew_returned hAdded hOk
        · intro a ha c hc hSameId
          -- the check for registered ids went through all accounts of this vault
          refine hOld (List.any_eq_true.mpr ⟨a, ha, List.any_eq_true.mpr ⟨c, hc, ?_⟩⟩)
          simpa using hSameId
      · rintro ((e | _) | what | _) n hMoved
        · exact hMoved
        · exact hMoved
        · exact hMoved
        · exact hMoved

/-! ### Whole requests -/

theorem moved_of_prepares {m n : Machine} (hFrom : H.before.machine.tick ≤ m.tick)
    (h : Prepares P E H m n) : R.Moved H Done m n := by
  cases h with
  | quiet hQuiet => exact moved_of_quiet hQuiet
  | refresh => exact moved_refreshLocalAccounts hFrom
  | load => exact moved_load m
  | verify hAt => exact moved_verifySessionAssertion (.inr hAt.enters) hAt.assertion

variable (R) in
/-- The operation replied, unless the regime leaves open whether a save that failed
took effect. -/
def Replied (o : Outcome Bytes Json) : Prop :=
  R.Unsure ∨ ∃ j, o = .returned j

theorem moved_of_concluded {m n : Machine} {o : Outcome Bytes Json} (h : Concluded P E H m o n) :
    R.Moved H (R.Replied o) m n := by
  cases h with
  | without _ => exact moved_refl m
  | verify hAt _ => exact moved_verifySessionAssertion (.inl hAt.enters) hAt.assertion
  | register _ hMay hEnd =>
      refine moved_storeRegistration hMay ?_
      rintro (hUnsure | ⟨count, hCount⟩)
      · exact .inl hUnsure
      · rcases hEnd with ⟨_, _, hReply⟩ | ⟨hNone, _⟩
        · exact .inr ⟨_, hReply⟩
        · exact absurd hCount (hNone count)
  | remove hMay hEchoes =>
      exact moved_removeCredential hMay (Or.imp_right fun hOk => ⟨_, hEchoes.1 hOk⟩)
  | enforce hMay hEchoes =>
      exact moved_setEnforced hMay (Or.imp_right fun hOk => ⟨_, hEchoes.1 hOk⟩)

/-- What a change of a table keeps, unless there is a reason `J`. -/
def Keeps (R : Regime P E) (H : Handling) (Done : Prop) (n : Machine)
    (Q : List AccountRecord → Prop) (J : Prop) : Prop :=
  ∀ A v, Q A → Change P E H Done n Q R.Steady A v.accounts →
    J ∨ ¬ R.Spoils v ∧ ((∀ a ∈ v.accounts, transcoded P a.sid = a.sid) →
      Q (v.accounts.map (transcodedAccount P)))

/-- What the changes keep of every table, a step of the store keeps. -/
theorem Moved.keeps {m n k : Machine} {Q : List AccountRecord → Prop} {J : Prop}
    (h : R.Moved H Done m n) (hLater : Later n k) (hGood : R.Good n) (hKeeps : R.Keeps H Done k Q J)
    (hBefore : ∀ A, R.Held m A → Q A) : (∀ A, R.Held n A → Q A) ∨ J := by
  by_cases hJ : J
  · exact .inr hJ
  · refine .inl fun A hA => ?_
    rcases h.held hGood A hA with hOld | ⟨v, A₀, hHeld, hChange, hStored⟩
    · exact hBefore A hOld
    · obtain ⟨hSound, hNew⟩ :=
        (hKeeps A₀ v (hBefore A₀ hHeld) (hChange.mono hLater hBefore)).resolve_left hJ
      obtain ⟨rfl, hText⟩ := hStored.resolve_left hSound
      exact hNew hText

/-- What the changes keep of every table, the steps before the transaction keep. -/
theorem keeps_prepares {m n : Machine} {Q : List AccountRecord → Prop} {J : Prop}
    (hSteps : Relation.ReflTransGen (Prepares P E H) H.before.machine m) (hLater : Later m n)
    (hGood : R.Good n) (hKeeps : R.Keeps H Done n Q J)
    (hBefore : ∀ A, R.Held H.before.machine A → Q A) : (∀ A, R.Held m A → Q A) ∨ J := by
  induction hSteps with
  | refl => exact .inl hBefore
  | @tail k l hFirst hStep ih =>
      have hMoved : R.Moved H Done k l :=
        moved_of_prepares (later_of_prepares hFirst).tick_le hStep
      rcases ih (hMoved.later.trans hLater) with hHere | hJ
      · exact hMoved.keeps hLater (R.good_of_later hLater hGood) hKeeps hHere
      · exact .inr hJ

/-- What the changes keep of every table, a request keeps: if all tables that were held
before it satisfy `Q`, so do those that are held after it, unless there is a reason. -/
theorem keeps {o : Outcome Bytes Json} {b : Broker} {Q : List AccountRecord → Prop} {J : Prop}
    (hConducted : Conducted P E H o b) (hGood : R.Good b.machine)
    (hKeeps : R.Keeps H (R.Replied o) b.machine Q J)
    (hBefore : ∀ A, R.Held H.before.machine A → Q A) : (∀ A, R.Held b.machine A → Q A) ∨ J := by
  obtain ⟨m, hPrepared, hConcluded⟩ := hConducted.store
  have hLast := moved_of_concluded (R := R) hConcluded
  rcases keeps_prepares hPrepared hLast.later hGood hKeeps hBefore with hHere | hJ
  · exact hLast.keeps (Std.Refl.refl _) hGood hKeeps hHere
  · exact .inr hJ

end Regime

end BrokerService
end WindowsFidoLogon
