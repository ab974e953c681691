import Mathlib.Logic.Relation
import WindowsFidoLogon.Model.BrokerService
import WindowsFidoLogon.Store.Progress

/-!
# What one request can do

`Handle` has ten operations, but what it can do to the store and to the session
table is little.  It may refresh and load the store any number of times, and end
with one transaction that changes an account.  Each transaction has a guard that
says which checks were passed before.  Each new session carries the checks that
were passed when it was opened.

`handle_conducts` is the inversion of `Handle` in these terms.  All results about
runs of the Broker rest on it, so none of them unfolds an operation.
-/

namespace WindowsFidoLogon
namespace BrokerService

open Program Text LocalAccount LocalCredentialStore Environment

/-! ## Calls that only take time -/

variable {P : Platform} {E : Environment}

theorem quiet_randomId (bytes : Nat) : Moves Quiet (randomId E bytes) := by
  refine .bind (quiet_ask _) fun random => ?_
  cases random <;> exact .pure _

theorem quiet_utcNow : Moves Quiet (utcNow E) :=
  .bind (quiet_ask _) fun _ => .pure _

theorem quiet_newSession (kind : SessionKind) (caller : Caller) (sid : WString) (v : Vault) :
    Moves Quiet (newSession E kind caller sid v) :=
  .bind (quiet_randomId _) fun _ => .pure _

theorem quiet_createRegistrationChallenge (session : Session) (account : Option AccountRecord) :
    Moves Quiet (createRegistrationChallenge E session account) := by
  refine .bind (quiet_randomId _) fun userId => ?_
  split_ifs
  · exact .raise _
  · exact .pure _

theorem quiet_isSidEnforced (sid : WString) : Moves Quiet (isSidEnforced E sid) :=
  .bind (fun m => Quiet.next m) fun _ => .pure _

theorem quiet_requireNoFilterConflict (enabled : Bool) (request : Json) :
    Moves Quiet (requireNoFilterConflict P E enabled request) := by
  unfold requireNoFilterConflict
  split_ifs
  · exact .pure _
  · refine .bind (.ofExcept _) fun allow => .bind (quiet_ask _) fun scan => ?_
    split
    · split_ifs
      · exact .raise _
      · exact .raise _
      · exact .pure _
    · split_ifs
      · exact .raise _
      · exact .pure _

theorem quiet_requireLocalPassword (denied unresolved : Bytes) (caller : Caller)
    (sid username password : WString) :
    Moves Quiet (requireLocalPassword E denied unresolved caller sid username password) := by
  unfold requireLocalPassword
  split_ifs
  · exact .raise _
  · refine .bind (quiet_ask _) fun db => ?_
    split
    · exact .raise _
    · split_ifs
      · exact .raise _
      · refine .bind (quiet_ask _) fun db => ?_
        split
        · exact .pure _
        · exact .raise _

section Transacts

variable {R : Machine → Machine → Prop}

theorem transacts_verifySessionAssertion (h : Transacts P E R) (session : Session) (value : Json) :
    Moves R (verifySessionAssertion P E session value) := by
  refine h.bind (h.findAccount _) fun found => ?_
  cases found with
  | none => exact h.pure _
  | some account =>
      dsimp only
      split_ifs
      · exact h.pure _
      refine h.bind (h.ofExcept _) fun assertion => ?_
      split
      · split
        · exact h.pure _
        · split
          · exact h.pure _
          · refine h.bind (h.upsertAccount _) fun r => ?_
            cases r <;> exact h.pure _
      · exact h.pure _

theorem transacts_storeRegistration (h : Transacts P E R) (session : Session)
    (registration : RegistrationResult) :
    Moves R (storeRegistration P E session registration) := by
  refine h.bind h.load fun r => ?_
  cases r with
  | error e => exact h.raise _
  | ok current =>
      dsimp only
      split_ifs
      · exact h.raise _
      refine h.bind (h.of_quiet quiet_utcNow) fun createdAt => ?_
      refine h.bind (h.ofExcept _) fun added => h.bind (h.save _) fun r => ?_
      cases r with
      | error e => exact h.raise _
      | ok _ => exact h.pure _

end Transacts

theorem moves_verifySessionAssertion (session : Session) (value : Json) :
    Moves Later (verifySessionAssertion P E session value) :=
  transacts_verifySessionAssertion transacts_later session value

theorem later_of_verified {session : Session} {value : Json} {m n : Machine}
    {r : Outcome Bytes (Except Bytes Unit)}
    (h : verifySessionAssertion P E session value m = (r, n)) : Later m n := by
  have hMoved := moves_verifySessionAssertion (P := P) (E := E) session value m
  rwa [h] at hMoved

/-- A lookup leaves the store as loading it does. -/
theorem findAccount_machine (sid : WString) (m : Machine) :
    (findAccount P E sid m).2 = (loadOrCreate P E m).2 := by
  unfold findAccount
  rw [bind_apply]
  rcases loadOrCreate P E m with ⟨(_ | _) | _ | _, n⟩ <;> rfl

/-! ## The checks a request has passed -/

/-- One request while it is handled, and the Broker when it arrived. -/
structure Handling where
  before : Broker
  caller : Caller
  request : Json

namespace Handling

variable (P E) (H : Handling)

/-- `request.value("op", "")` -/
def operation : Except Bytes Bytes :=
  H.request.valueOr Json.getString (text "op") []

/-- What a process does before it serves is what a request may do that asks for nothing. -/
def startUp (b : Broker) : Handling := ⟨b, { sid := [] }, .null⟩

/-- The call at tick `t` was made since the request arrived, and before `m`. -/
def During (t : Nat) (m : Machine) : Prop :=
  H.before.machine.tick ≤ t ∧ t < m.tick

/-- The caller has the SID `sid`, which is that of the local account that the
request names, and the password in the request is the one of that account. -/
def Validated (sid : WString) (m : Machine) : Prop :=
  ∃ username password account t t',
    wideField P H.request (text "sid") = .ok sid ∧
    wideField P H.request (text "username") = .ok username ∧
    extractPassword P H.request = .ok password ∧
    isSameSid H.caller.sid sid = true ∧
    H.During t m ∧ resolveLocalAccount (E.accounts t) username = .ok account ∧
    isSameSid sid account.sidString = true ∧
    H.During t' m ∧ validateLocalPassword (E.accounts t') account.username password = .ok ()

/-- The request took the session with the identifier it names, which was alive, of
the expected kind, and the caller's own unless that is LocalSystem. -/
def Entered (kind : SessionKind) (session : Session) (m : Machine) : Prop :=
  ∃ id t, stringField H.request (text "sessionId") = .ok id ∧ id.length = 32 ∧
    findSession id H.before.sessions = some session ∧
    H.During t m ∧ checkSession session H.caller kind (E.clock t) = .ok session

/-- `Handle` has refreshed the store and loaded it, and the operation begins at `b`. -/
def Begun (b : Broker) : Prop :=
  ∃ m n v, refreshLocalAccounts P E H.before.machine = (.returned (.ok ()), m) ∧
    loadOrCreate P E m = (.returned (.ok v), n) ∧ b = H.before.setMachine n

/-- The request has taken the session that it names, and goes on at `b`. -/
def Took (kind : SessionKind) (session : Session) (b : Broker) : Prop :=
  ∃ c, Begun P E H c ∧ enterSession E H.request H.caller kind c = (.returned session, b)

/-- The operations that verify an assertion. -/
inductive Verifying : Bytes → SessionKind → Prop
  | auth : Verifying (text "finish_auth") .authentication
  | remove : Verifying (text "finish_remove") .removalAuthorization

/-- The request verifies the assertion `value` for `session`, and the Broker is `b` then:
the store was refreshed and loaded, and the session was taken. -/
structure AtVerification (kind : SessionKind) (session : Session) (value : Json) (b : Broker) :
    Prop where
  operation : ∃ op, Verifying op kind ∧ H.operation = .ok op
  took : Took P E H kind session b
  assertion : H.request.at_ (text "assertion") = .ok value

/-- The assertion in the request was accepted for the session, when the request verified
it. -/
def Asserted (session : Session) (m : Machine) : Prop :=
  ∃ value b n, AtVerification P E H .removalAuthorization session value b ∧
    verifySessionAssertion P E session value b.machine = (.returned (.ok ()), n) ∧ Later n m

/-- The two ways in which a request may remove a credential. -/
inductive MayRemove (sid : WString) (credentialId : Bytes) (m : Machine) : Prop
  | password : H.operation = .ok (text "remove_with_password") → Validated P E H sid m →
      stringField H.request (text "credentialId") = .ok credentialId →
      MayRemove sid credentialId m
  | session {session : Session} : H.operation = .ok (text "finish_remove") →
      Entered E H .removalAuthorization session m → Asserted P E H session m →
      sid = session.targetSid → credentialId = session.credentialToRemove →
      MayRemove sid credentialId m

/-- The request may change the enforcement of `sid`. -/
structure MayEnforce (sid : WString) (enabled : Bool) (m : Machine) : Prop where
  operation : H.operation = .ok (text "set_enforcement")
  elevated : H.caller.isElevatedAdmin = true
  validated : Validated P E H sid m
  enabled : (H.request.at_ (text "enabled") >>= Json.getBool) = .ok enabled

/-- The request may store the registration. -/
structure MayRegister (session : Session) (registration : RegistrationResult) (m : Machine) :
    Prop where
  operation : H.operation = .ok (text "commit_registration")
  entered : Entered E H .registration session m
  verified : ∃ attestationObject clientDataJson,
    stringField H.request (text "attestationObject") = .ok attestationObject ∧
    stringField H.request (text "clientDataJson") = .ok clientDataJson ∧
    FidoVerifier.verifyRegistration P session.challenge session.rpId session.origin
      attestationObject clientDataJson = .ok registration

/-! ## The steps of a request -/

/-- What happens in the store before the transaction of the operation.  The
assertion of a removal is verified, and its counter stored, before the removal. -/
inductive Prepares : Machine → Machine → Prop
  | quiet {m n : Machine} : Quiet m n → Prepares m n
  | refresh (m : Machine) : Prepares m (refreshLocalAccounts P E m).2
  | load (m : Machine) : Prepares m (loadOrCreate P E m).2
  | verify {session : Session} {value : Json} {b : Broker} :
      AtVerification P E H .removalAuthorization session value b →
      Prepares b.machine (verifySessionAssertion P E session value b.machine).2

/-- The operations that end with a transaction. -/
def transactions : List Bytes :=
  [text "finish_auth", text "commit_registration", text "remove_with_password",
    text "finish_remove", text "set_enforcement"]

/-- The operation replies what its transaction came to: `{"ok": true}` if it went
through, and nothing otherwise. -/
def Echoes {ε : Type} (r : Outcome Bytes (Except ε Unit)) (o : Outcome Bytes Json) : Prop :=
  (r = .returned (.ok ()) → o = .returned okReply) ∧
    ∀ j, o = .returned j → r = .returned (.ok ())

/-- The reply of `commit_registration`. -/
def countReply (count : Nat) : Json :=
  .obj [(text "credentialCount", .int count), (text "ok", .bool true)]

/-- How a request ends: with no transaction, where it was refused or its operation
has none, or with the one of its operation. -/
inductive Concluded : Machine → Outcome Bytes Json → Machine → Prop
  | without {m : Machine} {o : Outcome Bytes Json} :
      (∀ j op, o = .returned j → H.operation = .ok op → op ∉ transactions) → Concluded m o m
  | verify {o : Outcome Bytes Json} {session : Session} {value : Json} {b : Broker} :
      AtVerification P E H .authentication session value b →
      Echoes (verifySessionAssertion P E session value b.machine).1 o →
      Concluded b.machine o (verifySessionAssertion P E session value b.machine).2
  | register {o : Outcome Bytes Json} {session : Session} {registration : RegistrationResult}
      {b : Broker} :
      Took P E H .registration session b → MayRegister P E H session registration b.machine →
      ((∃ count, (storeRegistration P E session registration b.machine).1 = .returned count ∧
          o = .returned (countReply count)) ∨
        (∀ count, (storeRegistration P E session registration b.machine).1 ≠ .returned count) ∧
          ∀ j, o ≠ .returned j) →
      Concluded b.machine o (storeRegistration P E session registration b.machine).2
  | remove {m : Machine} {o : Outcome Bytes Json} {sid : WString} {credentialId : Bytes} :
      MayRemove P E H sid credentialId m →
      Echoes (removeCredential P E sid credentialId m).1 o →
      Concluded m o (removeCredential P E sid credentialId m).2
  | enforce {m : Machine} {o : Outcome Bytes Json} {sid : WString} {enabled : Bool} :
      MayEnforce P E H sid enabled m →
      Echoes (setEnforced P E sid enabled m).1 o →
      Concluded m o (setEnforced P E sid enabled m).2

/-- What a new session stands for. -/
structure Opened (o : Outcome Bytes Json) (m : Machine) (id : Bytes) (session : Session) :
    Prop where
  callerSid : session.callerSid = H.caller.sid
  targetSid : wideField P H.request (text "sid") = .ok session.targetSid
  expiresAt : ∃ t, H.During t m ∧ session.expiresAt = E.clock t + kSessionLifetime
  purpose :
    match session.kind with
    | .authentication =>
        (H.operation = .ok (text "begin_auth") ∨ H.operation = .ok (text "begin_test")) ∧
          ∃ account, o = .returned (((createAuthChallenge session account).set
            (text "sessionId") (.str id)).set (text "ok") (.bool true))
    | .registration =>
        H.operation = .ok (text "begin_registration") ∧ Validated P E H session.targetSid m
    | .removalAuthorization =>
        H.operation = .ok (text "begin_remove") ∧ Validated P E H session.targetSid m ∧
          stringField H.request (text "credentialId") = .ok session.credentialToRemove

/-- Everything that a request did by the time it ended with `o` and left `b`. -/
structure Conducted (o : Outcome Bytes Json) (b : Broker) : Prop where
  store : ∃ m, Relation.ReflTransGen (Prepares P E H) H.before.machine m ∧
    Concluded P E H m o b.machine
  sessions : ∀ e ∈ b.sessions, e ∈ H.before.sessions ∨ Opened P E H o b.machine e.1 e.2

variable {P E H}

section Transacts

variable {R : Machine → Machine → Prop}

theorem Prepares.transacts (h : Transacts P E R) {m n : Machine} (hStep : Prepares P E H m n) :
    R m n := by
  cases hStep with
  | quiet hQuiet => exact h.quiet hQuiet
  | refresh => exact h.refreshLocalAccounts m
  | load => exact h.load m
  | verify _ => exact transacts_verifySessionAssertion h _ _ _

theorem Concluded.transacts (h : Transacts P E R) {m n : Machine} {o : Outcome Bytes Json}
    (hEnd : Concluded P E H m o n) : R m n := by
  cases hEnd with
  | without _ => exact h.refl m
  | verify _ _ => exact transacts_verifySessionAssertion h _ _ _
  | register _ _ _ => exact transacts_storeRegistration h _ _ _
  | remove _ _ => exact h.removeCredential _ _ m
  | enforce _ _ => exact h.setEnforced _ _ m

theorem transacts_of_prepares (h : Transacts P E R) {m n : Machine}
    (hSteps : Relation.ReflTransGen (Prepares P E H) m n) : R m n := by
  induction hSteps with
  | refl => exact h.refl m
  | tail _ hStep ih => exact h.trans ih (hStep.transacts h)

/-- What the calls of the store do, a whole request does. -/
theorem Conducted.transacts (h : Transacts P E R) {o : Outcome Bytes Json} {b : Broker}
    (hConducted : Conducted P E H o b) : R H.before.machine b.machine := by
  obtain ⟨m, hPrepared, hConcluded⟩ := hConducted.store
  exact h.trans (transacts_of_prepares h hPrepared) (hConcluded.transacts h)

end Transacts

theorem later_of_prepares {m n : Machine}
    (h : Relation.ReflTransGen (Prepares P E H) m n) : Later m n :=
  transacts_of_prepares transacts_later h

theorem Concluded.later {m n : Machine} {o : Outcome Bytes Json} (h : Concluded P E H m o n) :
    Later m n :=
  h.transacts transacts_later

theorem During.mono {t : Nat} {m n : Machine} (h : H.During t m) (hLater : Later m n) :
    H.During t n :=
  ⟨h.1, h.2.trans_le hLater.tick_le⟩

theorem Validated.mono {sid : WString} {m n : Machine} (h : Validated P E H sid m)
    (hLater : Later m n) : Validated P E H sid n := by
  obtain ⟨username, password, account, t, t', hSid, hUsername, hPassword, hCaller, ht, hAccount,
    hMatch, ht', hLogon⟩ := h
  exact ⟨username, password, account, t, t', hSid, hUsername, hPassword, hCaller, ht.mono hLater,
    hAccount, hMatch, ht'.mono hLater, hLogon⟩

theorem Entered.mono {kind : SessionKind} {session : Session} {m n : Machine}
    (h : Entered E H kind session m) (hLater : Later m n) : Entered E H kind session n := by
  obtain ⟨id, t, hId, hLength, hFound, ht, hCheck⟩ := h
  exact ⟨id, t, hId, hLength, hFound, ht.mono hLater, hCheck⟩

theorem Asserted.mono {session : Session} {m n : Machine} (h : Asserted P E H session m)
    (hLater : Later m n) : Asserted P E H session n := by
  obtain ⟨value, b, k, hAt, hVerified, hSince⟩ := h
  exact ⟨value, b, k, hAt, hVerified, hSince.trans hLater⟩

theorem MayRemove.mono {sid : WString} {credentialId : Bytes} {m n : Machine}
    (h : MayRemove P E H sid credentialId m) (hLater : Later m n) :
    MayRemove P E H sid credentialId n := by
  cases h with
  | password hOp hValid hId => exact .password hOp (hValid.mono hLater) hId
  | session hOp hEntered hAsserted hSid hId =>
      exact .session hOp (hEntered.mono hLater) (hAsserted.mono hLater) hSid hId

theorem MayEnforce.mono {sid : WString} {enabled : Bool} {m n : Machine}
    (h : MayEnforce P E H sid enabled m) (hLater : Later m n) : MayEnforce P E H sid enabled n :=
  { h with validated := h.validated.mono hLater }

theorem MayRegister.mono {session : Session} {registration : RegistrationResult} {m n : Machine}
    (h : MayRegister P E H session registration m) (hLater : Later m n) :
    MayRegister P E H session registration n :=
  { h with entered := h.entered.mono hLater }

/-! ## Up to the session -/

/-- Entering a session only takes the time to read the clock, and leaves the store. -/
theorem enterSession_returned {request : Json} {caller : Caller} {kind : SessionKind}
    {session : Session} {b b₁ : Broker}
    (h : enterSession E request caller kind b = (.returned session, b₁)) :
    ∃ id, stringField request (text "sessionId") = .ok id ∧ id.length = 32 ∧
      findSession id b.sessions = some session ∧
      checkSession session caller kind (E.clock b.machine.tick) = .ok session ∧
      b₁ = (b.setSessions (eraseSession id b.sessions)).setMachine b.machine.next := by
  unfold enterSession at h
  obtain ⟨id, b', hField, h⟩ := bind_returned_iff.mp h
  obtain ⟨hId, rfl⟩ := ofExcept_returned_iff.mp hField
  obtain ⟨taken, b', hTake, h⟩ := bind_returned_iff.mp h
  obtain ⟨rfl, rfl⟩ := ofExcept_returned_iff.mp h
  unfold takeSession at hTake
  split_ifs at hTake with hLength
  · cases hTake
  obtain ⟨sessions, c, hGets, hTake⟩ := bind_returned_iff.mp hTake
  cases hGets
  cases hFound : findSession id b.sessions with
  | none =>
      rw [hFound] at hTake
      cases hTake
  | some found =>
      rw [hFound] at hTake
      -- the session is erased, and then the clock is read
      have hChecked : checkSession found caller kind (E.clock b.machine.tick) = .ok session := by
        injection (Prod.mk.inj hTake).1
      -- a check that goes through returns the session it was given
      have hSame : found = session := by
        have hOk := hChecked
        unfold checkSession at hOk
        split_ifs at hOk
        exact Except.ok.inj hOk
      subst hSame
      exact ⟨id, hId, not_not.mp hLength, hFound, hChecked, (Prod.mk.inj hTake).2.symm⟩

/-- The steps of the store until an operation begins. -/
theorem Begun.prepared {b : Broker} (h : Begun P E H b) :
    Relation.ReflTransGen (Prepares P E H) H.before.machine b.machine := by
  obtain ⟨m, n, v, hRefresh, hLoad, rfl⟩ := h
  have hFirst : Prepares P E H H.before.machine m := by
    have hStep := Prepares.refresh (P := P) (E := E) (H := H) H.before.machine
    rwa [hRefresh] at hStep
  have hSecond : Prepares P E H m n := by
    have hStep := Prepares.load (P := P) (E := E) (H := H) m
    rwa [hLoad] at hStep
  exact (Relation.ReflTransGen.single hFirst).tail hSecond

theorem Begun.sessions {b : Broker} (h : Begun P E H b) : b.sessions = H.before.sessions := by
  obtain ⟨m, n, v, -, -, rfl⟩ := h
  rfl

theorem Took.prepared {kind : SessionKind} {session : Session} {b : Broker}
    (h : Took P E H kind session b) :
    Relation.ReflTransGen (Prepares P E H) H.before.machine b.machine := by
  obtain ⟨c, hBegun, hEnter⟩ := h
  obtain ⟨id, -, -, -, -, rfl⟩ := enterSession_returned hEnter
  exact hBegun.prepared.tail (.quiet (Quiet.next c.machine))

theorem Took.entered {kind : SessionKind} {session : Session} {b : Broker}
    (h : Took P E H kind session b) : Entered E H kind session b.machine := by
  obtain ⟨c, hBegun, hEnter⟩ := h
  obtain ⟨id, hId, hLength, hFound, hCheck, rfl⟩ := enterSession_returned hEnter
  rw [hBegun.sessions] at hFound
  exact ⟨id, c.machine.tick, hId, hLength, hFound,
    ⟨(later_of_prepares hBegun.prepared).tick_le, Nat.lt_succ_self _⟩, hCheck⟩

theorem AtVerification.prepared {kind : SessionKind} {session : Session} {value : Json} {b : Broker}
    (h : AtVerification P E H kind session value b) :
    Relation.ReflTransGen (Prepares P E H) H.before.machine b.machine :=
  h.took.prepared

theorem AtVerification.enters {kind : SessionKind} {session : Session} {value : Json} {b : Broker}
    (h : AtVerification P E H kind session value b) : Entered E H kind session b.machine :=
  h.took.entered

end Handling

/-! ## The stages of a request -/

theorem meets_onMachine {α : Type} {x : Call α} {b : Broker}
    {Q : Outcome Bytes α → Broker → Prop} :
    Meets (onMachine x) b Q ↔ Meets x b.machine fun o m => Q o (b.setMachine m) := Iff.rfl

open Handling

/-- Entering a session can only take it off the table. -/
theorem meets_enterSession (request : Json) (caller : Caller) (kind : SessionKind) (b : Broker) :
    Meets (enterSession E request caller kind) b fun _ b' =>
      Quiet b.machine b'.machine ∧ b'.sessions ⊆ b.sessions := by
  have hStays : Quiet b.machine b.machine ∧ b.sessions ⊆ b.sessions :=
    ⟨Std.Refl.refl _, List.Subset.refl _⟩
  unfold enterSession
  cases stringField request (text "sessionId") with
  | error what => exact hStays
  | ok id =>
      rw [ofExcept_ok, pure_bind]
      unfold takeSession
      split_ifs
      · exact hStays
      simp only [bind_assoc]
      rw [meets_bind, meets_gets]
      dsimp only
      cases findSession id b.sessions with
      | none => exact hStays
      | some session =>
          have hTaken : Quiet b.machine b.machine.next ∧ eraseSession id b.sessions ⊆ b.sessions :=
            ⟨Quiet.next _, fun e he => (List.mem_filter.mp he).1⟩
          simp only [bind_assoc, pure_bind]
          rw [meets_bind, meets_update]
          dsimp only
          rw [meets_bind, meets_onMachine, meets_ask]
          dsimp only
          show Meets (Program.ofExcept (checkSession session caller kind (E.clock b.machine.tick))) _ _
          cases checkSession session caller kind (E.clock b.machine.tick) <;> exact hTaken

/-- Up to now the request only prepared, and opened no session. -/
structure Stage (P : Platform) (E : Environment) (H : Handling) (b : Broker) : Prop where
  prepared : Relation.ReflTransGen (Prepares P E H) H.before.machine b.machine
  sessions : ∀ e ∈ b.sessions, e ∈ H.before.sessions

namespace Stage

variable {H : Handling} {b : Broker} {α : Type}

theorem start (H : Handling) : Stage P E H H.before :=
  ⟨.refl, fun _ h => h⟩

/-- A request may end at any stage with no reply. -/
theorem refused (hb : Stage P E H b) {o : Outcome Bytes Json} (ho : ∀ j, o ≠ .returned j) :
    Conducted P E H o b :=
  ⟨⟨b.machine, hb.prepared, .without fun j _ h => absurd h (ho j)⟩,
    fun e he => .inl (hb.sessions e he)⟩

theorem raise (hb : Stage P E H b) (what : Bytes) :
    Meets (Program.raise what) b (Conducted P E H) :=
  hb.refused (by simp)

/-- An operation without a transaction may reply at any stage. -/
theorem replied (hb : Stage P E H b) {op : Bytes} (hOp : H.operation = .ok op)
    (hNone : op ∉ transactions) (j : Json) : Meets (Pure.pure j) b (Conducted P E H) := by
  refine ⟨⟨b.machine, hb.prepared, .without fun _ op' _ hOp' => ?_⟩,
    fun e he => .inl (hb.sessions e he)⟩
  rw [hOp] at hOp'
  cases hOp'
  exact hNone

theorem bind_ofExcept (hb : Stage P E H b) {r : Except Bytes α} {f : α → BrokerCall Json}
    (hf : ∀ a, r = .ok a → Meets (f a) b (Conducted P E H)) :
    Meets (Program.ofExcept r >>= f) b (Conducted P E H) := by
  cases r with
  | ok a => exact hf a rfl
  | error what => exact hb.raise what

theorem setMachine (hb : Stage P E H b) {m : Machine} (hStep : Prepares P E H b.machine m) :
    Stage P E H (b.setMachine m) :=
  ⟨hb.prepared.tail hStep, hb.sessions⟩

/-- The next step of the store. -/
theorem bind_onMachine (hb : Stage P E H b) {x : Call α} {f : α → BrokerCall Json}
    (hStep : Prepares P E H b.machine (x b.machine).2)
    (hf : ∀ a m, x b.machine = (.returned a, m) → Stage P E H (b.setMachine m) →
      Meets (f a) (b.setMachine m) (Conducted P E H)) :
    Meets (onMachine x >>= f) b (Conducted P E H) := by
  rw [meets_bind, meets_onMachine]
  have hNext := hb.setMachine hStep
  unfold Meets
  rcases hx : x b.machine with ⟨a | what | _, m⟩ <;> rw [hx] at hNext
  · exact hf a m hx hNext
  · exact hNext.refused (by simp)
  · exact hNext.refused (by simp)

/-- A step in which only time passes. -/
theorem bind_quiet (hb : Stage P E H b) {x : Call α} {f : α → BrokerCall Json}
    (hQuiet : Moves Quiet x)
    (hf : ∀ a m, x b.machine = (.returned a, m) → Quiet b.machine m → Stage P E H (b.setMachine m) →
      Meets (f a) (b.setMachine m) (Conducted P E H)) :
    Meets (onMachine x >>= f) b (Conducted P E H) := by
  refine hb.bind_onMachine (.quiet (hQuiet _)) fun a m hx hNext => hf a m hx ?_ hNext
  have hMoved := hQuiet b.machine
  rwa [hx] at hMoved

theorem bind_findAccount (hb : Stage P E H b) {sid : WString}
    {f : Option AccountRecord → BrokerCall Json}
    (hf : ∀ a m, Later b.machine m → Stage P E H (b.setMachine m) →
      Meets (f a) (b.setMachine m) (Conducted P E H)) :
    Meets (onMachine (findAccount P E sid) >>= f) b (Conducted P E H) := by
  refine hb.bind_onMachine ?_ fun a m hFound hNext => hf a m ?_ hNext
  · rw [findAccount_machine]
    exact .load _
  · have hLater := transacts_later.findAccount (P := P) (E := E) sid b.machine
    rwa [hFound] at hLater

theorem bind_enterSession (hb : Stage P E H b) (hBegun : Begun P E H b) {kind : SessionKind}
    {f : Session → BrokerCall Json}
    (hf : ∀ session b', Stage P E H b' → Took P E H kind session b' →
      Meets (f session) b' (Conducted P E H)) :
    Meets (enterSession E H.request H.caller kind >>= f) b (Conducted P E H) := by
  rw [meets_bind]
  have hEnters := meets_enterSession (E := E) H.request H.caller kind b
  unfold Meets at hEnters ⊢
  rcases hEnter : enterSession E H.request H.caller kind b with ⟨session | what | _, b'⟩ <;>
    rw [hEnter] at hEnters
  all_goals
    have hNext : Stage P E H b' :=
      ⟨hb.prepared.tail (.quiet hEnters.1), fun e he => hb.sessions e (hEnters.2 he)⟩
  · exact hf session b' hNext ⟨b, hBegun, hEnter⟩
  · exact hNext.refused (by simp)
  · exact hNext.refused (by simp)

end Stage

/-! ## New sessions -/

theorem meets_purgeExpired (sessions : List (Bytes × Session)) (m : Machine) :
    Meets (purgeExpired E sessions) m fun o n =>
      Quiet m n ∧ ∃ live, o = .returned live ∧ live ⊆ sessions := by
  induction sessions generalizing m with
  | nil => exact ⟨Std.Refl.refl m, [], rfl, List.Subset.refl _⟩
  | cons entry rest ih =>
      unfold purgeExpired
      rw [meets_bind, meets_ask]
      dsimp only
      rw [meets_bind]
      refine (ih m.next).mono ?_
      rintro _ n ⟨hQuiet, live, rfl, hLive⟩
      refine ⟨Trans.trans (Quiet.next m) hQuiet, _, rfl, ?_⟩
      split_ifs
      · exact List.subset_cons_of_subset _ hLive
      · exact List.cons_subset_cons _ hLive

/-- A new session gets an identifier that no live one has. -/
theorem meets_allocateSession (session : Session) (attempts : Nat) (b : Broker) :
    Meets (allocateSession E session attempts) b fun o b' =>
      Quiet b.machine b'.machine ∧
        match o with
        | .returned id => findSession id b.sessions = none ∧
            b'.sessions = b.sessions ++ [(id, session)]
        | _ => b'.sessions = b.sessions := by
  induction attempts generalizing b with
  | zero => exact ⟨Std.Refl.refl _, rfl⟩
  | succ attempts ih =>
      unfold allocateSession
      rw [meets_bind, meets_onMachine]
      have hRandom : Meets (randomId E 24) b.machine fun _ m => Quiet b.machine m :=
        quiet_randomId 24 b.machine
      refine hRandom.mono ?_
      rintro (id | what | _) m hQuiet
      · dsimp only
        rw [meets_bind, meets_gets]
        dsimp only
        split_ifs with hFresh
        · simp only [Bool.and_eq_true, Option.isNone_iff_eq_none] at hFresh
          exact ⟨hQuiet, hFresh.2, rfl⟩
        · refine (ih (b.setMachine m)).mono ?_
          rintro o b' ⟨hQuiet', h⟩
          exact ⟨Trans.trans hQuiet hQuiet', h⟩
      · exact ⟨hQuiet, rfl⟩
      · exact ⟨hQuiet, rfl⟩

/-- Opening a session drops expired ones and adds the new one with its deadline. -/
theorem meets_putSession (session : Session) (b : Broker) :
    Meets (putSession E session) b fun o b' =>
      Quiet b.machine b'.machine ∧
        match o with
        | .returned id => ∃ live t, live ⊆ b.sessions ∧ findSession id live = none ∧
            b.machine.tick ≤ t ∧ t < b'.machine.tick ∧
            b'.sessions = live ++ [(id, { session with expiresAt := E.clock t + kSessionLifetime })]
        | _ => b'.sessions ⊆ b.sessions := by
  unfold putSession
  split_ifs
  · exact ⟨Std.Refl.refl _, List.Subset.refl _⟩
  rw [meets_bind, meets_onMachine, meets_ask]
  dsimp only
  rw [meets_bind, meets_gets]
  dsimp only
  rw [meets_bind, meets_onMachine]
  refine (meets_purgeExpired b.sessions b.machine.next).mono ?_
  rintro _ m ⟨hQuiet, live, rfl, hLive⟩
  have hQuiet' : Quiet b.machine m := Trans.trans (Quiet.next _) hQuiet
  dsimp only
  rw [meets_bind, meets_update]
  dsimp only
  split_ifs
  · exact ⟨hQuiet', hLive⟩
  · refine (meets_allocateSession _ 4 _).mono ?_
    rintro (id | what | _) b' ⟨hRest, h⟩
    · exact ⟨Trans.trans hQuiet' hRest, live, b.machine.tick, hLive, h.1, le_refl _,
        Nat.lt_of_lt_of_le (Nat.lt_of_succ_le hQuiet.tick_le) hRest.tick_le, h.2⟩
    · exact ⟨Trans.trans hQuiet' hRest, (h : b'.sessions = live) ▸ hLive⟩
    · exact ⟨Trans.trans hQuiet' hRest, (h : b'.sessions = live) ▸ hLive⟩

/-- A request that opens a session as its last change. -/
theorem Stage.bind_putSession {H : Handling} {b : Broker} (hb : Stage P E H b) {op : Bytes}
    (hOp : H.operation = .ok op) (hNone : op ∉ transactions) {session : Session}
    {f : Bytes → BrokerCall Json}
    (hf : ∀ id t b', H.During t b'.machine → Later b.machine b'.machine →
      Meets (f id) b' fun o c => Quiet b'.machine c.machine ∧ c.sessions = b'.sessions ∧
        Opened P E H o c.machine id { session with expiresAt := E.clock t + kSessionLifetime }) :
    Meets (putSession E session >>= f) b (Conducted P E H) := by
  rw [meets_bind]
  refine (meets_putSession session b).mono ?_
  rintro (id | what | _) b' ⟨hQuiet, h⟩
  · obtain ⟨live, t, hLive, _, hFrom, hTo, hSessions⟩ := h
    have hDuring : H.During t b'.machine :=
      ⟨(later_of_prepares hb.prepared).tick_le.trans hFrom, hTo⟩
    -- what comes after the session was put only takes time
    refine (hf id t b' hDuring hQuiet.later).mono ?_
    rintro o c ⟨hQuiet', hSame, hOpened⟩
    refine ⟨⟨c.machine, (hb.prepared.tail (.quiet hQuiet)).tail (.quiet hQuiet'),
      .without fun _ op' _ hOp' => ?_⟩, fun e he => ?_⟩
    · rw [hOp] at hOp'
      cases hOp'
      exact hNone
    · rw [hSame, hSessions] at he
      rcases List.mem_append.mp he with he | he
      · exact .inl (hb.sessions e (hLive he))
      · rw [List.mem_singleton] at he
        subst he
        exact .inr hOpened
  · exact Stage.refused ⟨hb.prepared.tail (.quiet hQuiet), fun e he => hb.sessions e (h he)⟩ (by simp)
  · exact Stage.refused ⟨hb.prepared.tail (.quiet hQuiet), fun e he => hb.sessions e (h he)⟩ (by simp)

theorem newSession_returned {kind : SessionKind} {caller : Caller} {sid : WString} {v : Vault}
    {m n : Machine} {session : Session}
    (h : newSession E kind caller sid v m = (.returned session, n)) :
    session.kind = kind ∧ session.callerSid = caller.sid ∧ session.targetSid = sid := by
  unfold newSession at h
  obtain ⟨challenge, _, _, h⟩ := bind_returned_iff.mp h
  cases h
  exact ⟨rfl, rfl, rfl⟩

/-- The password check of an operation, as the guard of what follows. -/
theorem validated_of_requireLocalPassword {H : Handling} {denied unresolved : Bytes}
    {sid username password name : WString} {m n : Machine}
    (hSid : wideField P H.request (text "sid") = .ok sid)
    (hUsername : wideField P H.request (text "username") = .ok username)
    (hPassword : extractPassword P H.request = .ok password)
    (hFrom : H.before.machine.tick ≤ m.tick)
    (h : requireLocalPassword E denied unresolved H.caller sid username password m =
      (.returned name, n)) : Validated P E H sid n := by
  unfold requireLocalPassword at h
  split_ifs at h with hCaller
  · cases h
  obtain ⟨db, m₁, hDb, h⟩ := bind_returned_iff.mp h
  cases hDb
  cases hAccount : resolveLocalAccount (E.accounts m.tick) username with
  | error e =>
      rw [hAccount] at h
      cases h
  | ok account =>
      rw [hAccount] at h
      dsimp only at h
      split_ifs at h with hMatch
      · cases h
      obtain ⟨db', m₂, hDb', h⟩ := bind_returned_iff.mp h
      cases hDb'
      cases hLogon : validateLocalPassword (E.accounts m.next.tick) account.username password with
      | error e =>
          rw [hLogon] at h
          cases h
      | ok _ =>
          rw [hLogon] at h
          cases h
          refine ⟨username, password, account, m.tick, m.next.tick, hSid, hUsername, hPassword,
            by simpa using hCaller, ⟨hFrom, ?_⟩, hAccount, by simpa using hMatch,
            ⟨hFrom.trans (Nat.le_succ _), Nat.lt_succ_self _⟩, hLogon⟩
          exact Nat.lt_succ_of_lt (Nat.lt_succ_self _)

/-- After the password check, what it is a guard of holds. -/
theorem Stage.bind_requireLocalPassword {H : Handling} {b : Broker} (hb : Stage P E H b)
    {denied unresolved : Bytes} {sid username password : WString} {f : WString → BrokerCall Json}
    (hSid : wideField P H.request (text "sid") = .ok sid)
    (hUsername : wideField P H.request (text "username") = .ok username)
    (hPassword : extractPassword P H.request = .ok password)
    (hf : ∀ name m, Stage P E H (b.setMachine m) → Validated P E H sid m →
      Meets (f name) (b.setMachine m) (Conducted P E H)) :
    Meets (onMachine (requireLocalPassword E denied unresolved H.caller sid username password) >>= f)
      b (Conducted P E H) := by
  refine hb.bind_quiet (quiet_requireLocalPassword _ _ _ _ _ _) fun name m hName _ hNext => ?_
  exact hf name m hNext (validated_of_requireLocalPassword hSid hUsername hPassword
    (later_of_prepares hb.prepared).tick_le hName)

/-! ## The operations -/

/-- A request that ends with a transaction and says what became of it. -/
theorem Stage.conclude {H : Handling} {b : Broker} (hb : Stage P E H b) {ε : Type}
    {x : Call (Except ε Unit)} {f : Except ε Unit → BrokerCall Json}
    (hOk : f (.ok ()) = Pure.pure okReply) (hError : ∀ e, ∃ what, f (.error e) = Program.raise what)
    (hConcluded : ∀ o, Echoes (x b.machine).1 o → Concluded P E H b.machine o (x b.machine).2) :
    Meets (onMachine x >>= f) b (Conducted P E H) := by
  rw [meets_bind, meets_onMachine]
  unfold Meets
  rcases hx : x b.machine with ⟨(e | _) | what | _, m⟩ <;> rw [hx] at hConcluded
  · obtain ⟨what, hWhat⟩ := hError e
    dsimp only
    rw [hWhat]
    exact ⟨⟨b.machine, hb.prepared, hConcluded _ ⟨by simp, by simp⟩⟩,
      fun e he => .inl (hb.sessions e he)⟩
  · dsimp only
    rw [hOk]
    exact ⟨⟨b.machine, hb.prepared, hConcluded _ ⟨fun _ => rfl, fun _ _ => rfl⟩⟩,
      fun e he => .inl (hb.sessions e he)⟩
  · exact ⟨⟨b.machine, hb.prepared, hConcluded _ ⟨by simp, by simp⟩⟩,
      fun e he => .inl (hb.sessions e he)⟩
  · exact ⟨⟨b.machine, hb.prepared, hConcluded _ ⟨by simp, by simp⟩⟩,
      fun e he => .inl (hb.sessions e he)⟩

section Operations

variable {H : Handling} {b : Broker}

theorem conducts_status (hb : Stage P E H b) (hOp : H.operation = .ok (text "status")) :
    Meets (status P E H.caller H.request) b (Conducted P E H) := by
  unfold status
  refine hb.bind_ofExcept fun sid _ => ?_
  split_ifs
  · exact hb.raise _
  refine hb.bind_findAccount fun found m _ hNext => ?_
  cases found with
  | none => exact hNext.replied hOp (by decide) _
  | some account => exact hNext.replied hOp (by decide) _

theorem conducts_challengeAccount (hb : Stage P E H b)
    (hOp : H.operation = .ok (text "begin_auth") ∨ H.operation = .ok (text "begin_test"))
    {sid : WString} (hSid : wideField P H.request (text "sid") = .ok sid) (v : Vault)
    (account : AccountRecord) :
    Meets (challengeAccount E H.caller sid v account) b (Conducted P E H) := by
  unfold challengeAccount
  refine hb.bind_quiet (quiet_newSession _ _ _ _) fun session m hSession _ hNext => ?_
  obtain ⟨hKind, hCaller, rfl⟩ := newSession_returned hSession
  obtain ⟨op, hOp', hNone⟩ : ∃ op, H.operation = .ok op ∧ op ∉ transactions := by
    rcases hOp with hOp | hOp
    · exact ⟨_, hOp, by decide⟩
    · exact ⟨_, hOp, by decide⟩
  refine hNext.bind_putSession hOp' hNone fun id t b' hDuring _ => ?_
  refine ⟨Std.Refl.refl _, rfl, ⟨hCaller, hSid, ⟨t, hDuring, rfl⟩, ?_⟩⟩
  simp only [hKind]
  exact ⟨hOp, account, rfl⟩

theorem conducts_beginAuth (hb : Stage P E H b) (hOp : H.operation = .ok (text "begin_auth"))
    (v : Vault) : Meets (beginAuth P E H.caller H.request v) b (Conducted P E H) := by
  unfold beginAuth
  refine hb.bind_ofExcept fun sid hSid => ?_
  split_ifs
  · exact hb.raise _
  refine hb.bind_findAccount fun found m _ hNext => ?_
  cases found.filter (·.enforced) with
  | none =>
      refine hNext.bind_quiet (quiet_isSidEnforced _) fun listed m' _ _ hLast => ?_
      split_ifs
      · exact hLast.raise _
      · exact hLast.replied hOp (by decide) _
  | some account =>
      dsimp only
      split_ifs
      · exact hNext.raise _
      · exact conducts_challengeAccount hNext (.inl hOp) hSid v account

theorem conducts_finishAuth (hb : Stage P E H b) (hBegun : Begun P E H b)
    (hOp : H.operation = .ok (text "finish_auth")) :
    Meets (finishAuth P E H.caller H.request) b (Conducted P E H) := by
  unfold finishAuth
  refine hb.bind_enterSession hBegun fun session b' hNext hTook => ?_
  refine hNext.bind_ofExcept fun value hValue => ?_
  exact hNext.conclude rfl (fun e => ⟨e, rfl⟩) fun o ho =>
    .verify ⟨⟨_, .auth, hOp⟩, hTook, hValue⟩ ho

theorem conducts_beginTest (hb : Stage P E H b) (hOp : H.operation = .ok (text "begin_test"))
    (v : Vault) : Meets (beginTest P E H.caller H.request v) b (Conducted P E H) := by
  unfold beginTest
  refine hb.bind_ofExcept fun sid hSid => ?_
  split_ifs
  · exact hb.raise _
  refine hb.bind_findAccount fun found m _ hNext => ?_
  cases found with
  | none => exact hNext.raise _
  | some account =>
      dsimp only
      split_ifs
      · exact hNext.raise _
      · exact conducts_challengeAccount hNext (.inr hOp) hSid v account

theorem conducts_beginRegistration (hb : Stage P E H b)
    (hOp : H.operation = .ok (text "begin_registration")) (v : Vault) :
    Meets (beginRegistration P E H.caller H.request v) b (Conducted P E H) := by
  unfold beginRegistration
  refine hb.bind_ofExcept fun sid hSid => hb.bind_ofExcept fun username hUsername => ?_
  refine hb.bind_ofExcept fun password hPassword => ?_
  refine hb.bind_requireLocalPassword hSid hUsername hPassword fun name m hNext hValid => ?_
  refine hNext.bind_findAccount fun found m' hFound hNext' => ?_
  split_ifs
  · exact hNext'.raise _
  refine hNext'.bind_ofExcept fun label _ => ?_
  refine hNext'.bind_quiet (quiet_newSession _ _ _ _) fun session m'' hSession hSession' hLast => ?_
  obtain ⟨hKind, hCaller, hTarget⟩ := newSession_returned hSession
  refine hLast.bind_putSession hOp (by decide) fun id t b' hDuring hLater => ?_
  -- the session is stored before the challenge is made, so it may be there without a reply
  have hOpened : ∀ o n, Quiet b'.machine n → Opened P E H o n id
      { session with username := name, label, expiresAt := E.clock t + kSessionLifetime } := by
    intro o n hQuiet
    refine ⟨hCaller, hTarget ▸ hSid, ⟨t, hDuring.mono hQuiet.later, rfl⟩, ?_⟩
    simp only [hKind]
    refine ⟨hOp, hTarget ▸ ?_⟩
    exact hValid.mono (hFound.trans (hSession'.later.trans (hLater.trans hQuiet.later)))
  have hChallenge : Meets (createRegistrationChallenge E
      { session with username := name, label } found) b'.machine fun _ n => Quiet b'.machine n :=
    quiet_createRegistrationChallenge _ _ _
  rw [meets_bind, meets_onMachine]
  refine hChallenge.mono ?_
  rintro (registration | what | _) n hQuiet
  · exact ⟨hQuiet, rfl, hOpened _ _ hQuiet⟩
  · exact ⟨hQuiet, rfl, hOpened _ _ hQuiet⟩
  · exact ⟨hQuiet, rfl, hOpened _ _ hQuiet⟩

theorem conducts_commitRegistration (hb : Stage P E H b) (hBegun : Begun P E H b)
    (hOp : H.operation = .ok (text "commit_registration")) :
    Meets (commitRegistration P E H.caller H.request) b (Conducted P E H) := by
  unfold commitRegistration
  refine hb.bind_enterSession hBegun fun session b' hNext hTook => ?_
  refine hNext.bind_ofExcept fun attestation hAttestation => ?_
  refine hNext.bind_ofExcept fun clientData hClientData => ?_
  refine hNext.bind_ofExcept fun registration hVerified => ?_
  have hMay : MayRegister P E H session registration b'.machine :=
    ⟨hOp, hTook.entered, attestation, clientData, hAttestation, hClientData, hVerified⟩
  have hEnd : ∀ o, _ → Concluded P E H b'.machine o
      (storeRegistration P E session registration b'.machine).2 := fun o => .register hTook hMay
  have hStored : ∀ e ∈ b'.sessions, e ∈ H.before.sessions := hNext.sessions
  rw [meets_bind, meets_onMachine]
  unfold Meets
  rcases hEnded : storeRegistration P E session registration b'.machine with
    ⟨count | what | _, n⟩ <;> rw [hEnded] at hEnd
  · exact ⟨⟨b'.machine, hNext.prepared, hEnd _ (.inl ⟨count, rfl, rfl⟩)⟩,
      fun e he => .inl (hStored e he)⟩
  · exact ⟨⟨b'.machine, hNext.prepared, hEnd _ (.inr ⟨by simp, by simp⟩)⟩,
      fun e he => .inl (hStored e he)⟩
  · exact ⟨⟨b'.machine, hNext.prepared, hEnd _ (.inr ⟨by simp, by simp⟩)⟩,
      fun e he => .inl (hStored e he)⟩

theorem credentialId_of_requireRemovable {found : Option AccountRecord} {request : Json}
    {account : AccountRecord} {credentialId : Bytes}
    (h : requireRemovable found request = .ok (account, credentialId)) :
    stringField request (text "credentialId") = .ok credentialId := by
  unfold requireRemovable at h
  cases found with
  | none => cases h
  | some found =>
      dsimp only at h
      split_ifs at h
      obtain ⟨id, hId, h⟩ := except_bind_eq_ok.mp h
      split_ifs at h
      cases h
      exact hId

theorem conducts_beginRemove (hb : Stage P E H b)
    (hOp : H.operation = .ok (text "begin_remove")) (v : Vault) :
    Meets (beginRemove P E H.caller H.request v) b (Conducted P E H) := by
  unfold beginRemove
  refine hb.bind_ofExcept fun sid hSid => hb.bind_ofExcept fun username hUsername => ?_
  refine hb.bind_ofExcept fun password hPassword => ?_
  refine hb.bind_requireLocalPassword hSid hUsername hPassword fun name m hNext hValid => ?_
  refine hNext.bind_findAccount fun found m' hFound hNext' => ?_
  refine hNext'.bind_ofExcept fun removable hRemovable => ?_
  obtain ⟨account, credentialId⟩ := removable
  have hId := credentialId_of_requireRemovable hRemovable
  refine hNext'.bind_quiet (quiet_newSession _ _ _ _) fun session m'' hSession hSession' hLast => ?_
  obtain ⟨hKind, hCaller, hTarget⟩ := newSession_returned hSession
  refine hLast.bind_putSession hOp (by decide) fun id t b' hDuring hLater => ?_
  refine ⟨Std.Refl.refl _, rfl, ⟨hCaller, hTarget ▸ hSid, ⟨t, hDuring, rfl⟩, ?_⟩⟩
  simp only [hKind]
  exact ⟨hOp, hTarget ▸ hValid.mono (hFound.trans (hSession'.later.trans hLater)), hId⟩

theorem conducts_removeWithPassword (hb : Stage P E H b)
    (hOp : H.operation = .ok (text "remove_with_password")) :
    Meets (removeWithPassword P E H.caller H.request) b (Conducted P E H) := by
  unfold removeWithPassword
  refine hb.bind_ofExcept fun sid hSid => hb.bind_ofExcept fun username hUsername => ?_
  refine hb.bind_ofExcept fun password hPassword => ?_
  refine hb.bind_requireLocalPassword hSid hUsername hPassword fun name m hNext hValid => ?_
  refine hNext.bind_findAccount fun found m' hFound hNext' => ?_
  refine hNext'.bind_ofExcept fun removable hRemovable => ?_
  obtain ⟨account, credentialId⟩ := removable
  have hId := credentialId_of_requireRemovable hRemovable
  exact hNext'.conclude rfl (fun e => ⟨_, rfl⟩) fun o ho =>
    .remove (.password hOp (hValid.mono hFound) hId) ho

theorem conducts_finishRemove (hb : Stage P E H b) (hBegun : Begun P E H b)
    (hOp : H.operation = .ok (text "finish_remove")) :
    Meets (finishRemove P E H.caller H.request) b (Conducted P E H) := by
  unfold finishRemove
  refine hb.bind_enterSession hBegun fun session b' hNext hTook => ?_
  refine hNext.bind_ofExcept fun value hValue => ?_
  have hAt : AtVerification P E H .removalAuthorization session value b' :=
    ⟨⟨_, .remove, hOp⟩, hTook, hValue⟩
  -- the verification stores a counter, so it is a step of its own before the removal
  refine hNext.bind_onMachine (.verify hAt) fun verified m hVerify hNext' => ?_
  refine hNext'.bind_ofExcept fun _ hAccepted => ?_
  subst hAccepted
  refine hNext'.conclude rfl (fun e => ⟨_, rfl⟩) fun o ho => .remove ?_ ho
  exact .session hOp (hTook.entered.mono (later_of_verified hVerify)) ⟨value, b', m, hAt, hVerify, Std.Refl.refl m⟩
    rfl rfl

theorem conducts_setEnforcement (hb : Stage P E H b)
    (hOp : H.operation = .ok (text "set_enforcement")) :
    Meets (setEnforcement P E H.caller H.request) b (Conducted P E H) := by
  unfold setEnforcement
  -- the caller is checked before any field of the request is read
  split_ifs with hElevated
  · exact hb.raise _
  refine hb.bind_ofExcept fun sid hSid => hb.bind_ofExcept fun username hUsername => ?_
  refine hb.bind_ofExcept fun password hPassword => ?_
  refine hb.bind_requireLocalPassword hSid hUsername hPassword fun name m hNext hValid => ?_
  refine hNext.bind_ofExcept fun enabled hEnabled => ?_
  refine hNext.bind_quiet (quiet_requireNoFilterConflict _ _) fun _ m' _ hQuiet hLast => ?_
  exact hLast.conclude rfl (fun e => ⟨_, rfl⟩) fun o ho =>
    .enforce ⟨hOp, by simpa using hElevated, hValid.mono hQuiet.later, hEnabled⟩ ho

end Operations

/-- Whatever a request is, it conducts itself in this way. -/
theorem handle_conducts (H : Handling) :
    Meets (handle P E H.caller H.request) H.before (Conducted P E H) := by
  unfold handle
  refine (Stage.start H).bind_onMachine (.refresh _) fun r m hRefresh hRefreshed => ?_
  cases r with
  | error e => exact hRefreshed.raise _
  | ok _ =>
      refine hRefreshed.bind_ofExcept fun operation hOp => ?_
      unfold dispatch
      -- `status` comes before the vault is loaded
      by_cases hStatus : operation = text "status"
      · rw [if_pos hStatus]
        exact conducts_status hRefreshed (hStatus ▸ hOp)
      rw [if_neg hStatus]
      refine hRefreshed.bind_onMachine (.load _) fun r m' hLoad hLoaded => ?_
      cases r with
      | error e => exact hLoaded.raise _
      | ok v =>
          have hBegun : Begun P E H ((H.before.setMachine m).setMachine m') :=
            ⟨m, m', v, hRefresh, hLoad, rfl⟩
          dsimp only
          split_ifs with h₁ h₂ h₃ h₄ h₅ h₆ h₇ h₈ h₉
          · exact conducts_beginAuth hLoaded (h₁ ▸ hOp) v
          · exact conducts_finishAuth hLoaded hBegun (h₂ ▸ hOp)
          · exact conducts_beginTest hLoaded (h₃ ▸ hOp) v
          · exact conducts_beginRegistration hLoaded (h₄ ▸ hOp) v
          · exact conducts_commitRegistration hLoaded hBegun (h₅ ▸ hOp)
          · exact conducts_beginRemove hLoaded (h₆ ▸ hOp) v
          · exact conducts_removeWithPassword hLoaded (h₇ ▸ hOp)
          · exact conducts_finishRemove hLoaded hBegun (h₈ ▸ hOp)
          · exact conducts_setEnforcement hLoaded (h₉ ▸ hOp)
          · exact hLoaded.raise _

end BrokerService
end WindowsFidoLogon
