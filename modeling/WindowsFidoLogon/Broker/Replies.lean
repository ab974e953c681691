import WindowsFidoLogon.Broker.FinishAuth
import WindowsFidoLogon.Broker.ReplySize
import WindowsFidoLogon.Store.Fallback

/-!
# What a reply tells

The replies of the ten operations, each with what stands behind it in the Broker: the
account it speaks about is the one that the request looked up, and the session it hands out
was opened by the request and is in the table when the reply is printed.

`told_of_handle` is the inversion of `Handle` for requests that are answered: what a
client learns from a reply is read off it.
-/

namespace WindowsFidoLogon
namespace BrokerService

open Program Text LocalAccount LocalCredentialStore Environment Handling

variable {P : Platform} {E : Environment}

/-! ## Accounts and sessions behind a reply -/

/-- Where a request looks up the account that its reply is about. -/
inductive LooksUp (P : Platform) (E : Environment) (H : Handling) : Machine → Prop
  /-- `status`: as soon as the store is refreshed -/
  | status {m : Machine} : H.operation = .ok (text "status") →
      refreshLocalAccounts P E H.before.machine = (.returned (.ok ()), m) → LooksUp P E H m
  /-- `begin_auth` and `begin_test`: as soon as it is loaded -/
  | challenge {b : Broker} :
      H.operation = .ok (text "begin_auth") ∨ H.operation = .ok (text "begin_test") →
      Begun P E H b → LooksUp P E H b.machine
  /-- `begin_registration` and `begin_remove`: once the password was accepted -/
  | validated {b : Broker} {denied unresolved : Bytes} {sid username password name : WString}
      {m : Machine} :
      H.operation = .ok (text "begin_registration") ∨ H.operation = .ok (text "begin_remove") →
      Begun P E H b → wideField P H.request (text "sid") = .ok sid →
      wideField P H.request (text "username") = .ok username →
      extractPassword P H.request = .ok password →
      requireLocalPassword E denied unresolved H.caller sid username password b.machine =
        (.returned name, m) → LooksUp P E H m

/-- The request looked the SID up, and found this account. -/
def Found (P : Platform) (E : Environment) (H : Handling) (sid : WString)
    (account : Option AccountRecord) : Prop :=
  ∃ m n, LooksUp P E H m ∧ findAccount P E sid m = (.returned account, n)

/-- The credentials of an account that was found are valid. -/
theorem Found.valid {H : Handling} {sid : WString} {account : AccountRecord}
    (h : Found P E H sid (some account)) : ValidAccount P account := by
  obtain ⟨m, n, -, hFound⟩ := h
  obtain ⟨v, hLoad, hAccount⟩ := load_of_findAccount hFound
  rcases load_found_or_failed (P := P) (E := E) m with
    ⟨file, w, k, hEnd, hKept, hVault, -⟩ | ⟨e, k, hEnd, -⟩
  · obtain ⟨rfl, rfl⟩ : v = w ∧ n = k := by
      rw [hLoad] at hEnd
      cases hEnd
      exact ⟨rfl, rfl⟩
    obtain ⟨content, -, hOpen⟩ := vaultIn_eq_some.mp hVault
    exact (isVaultValid_iff.mp (isVaultValid_of_vaultOf hOpen)).accounts account
      (List.mem_of_find?_eq_some hAccount)
  · rw [hLoad] at hEnd
    cases hEnd

/-- The request opened this session, and the Broker has it. -/
structure Issued (P : Platform) (E : Environment) (H : Handling) (b : Broker) (kind : SessionKind)
    (sid : WString) (id : Bytes) (session : Session) : Prop where
  mem : (id, session) ∈ b.sessions
  kind : session.kind = kind
  targetSid : session.targetSid = sid
  opened : Opened P E H (handle P E H.caller H.request H.before).1 b.machine id session

/-- How an operation that is answered with `j` left the Broker as `b`. -/
inductive Told (P : Platform) (E : Environment) (H : Handling) (b : Broker) : Bytes → Json → Prop
  | account {sid : WString} {account : AccountRecord} :
      wideField P H.request (text "sid") = .ok sid → Found P E H sid (some account) →
      Told P E H b (text "status") (statusReply P account)
  | noAccount {sid : WString} :
      wideField P H.request (text "sid") = .ok sid → Found P E H sid none →
      Told P E H b (text "status") (.obj [(text "enforced", .bool false),
        (text "found", .bool false), (text "ok", .bool true)])
  | unenforced {sid : WString} {account : Option AccountRecord} :
      wideField P H.request (text "sid") = .ok sid → Found P E H sid account →
      account.filter (·.enforced) = none →
      Told P E H b (text "begin_auth")
        (.obj [(text "enforced", .bool false), (text "ok", .bool true)])
  | challenge {op : Bytes} {sid : WString} {account : AccountRecord} {id : Bytes}
      {session : Session} :
      op = text "begin_auth" ∧ account.enforced = true ∨ op = text "begin_test" →
      wideField P H.request (text "sid") = .ok sid → Found P E H sid (some account) →
      Issued P E H b .authentication sid id session →
      Told P E H b op (challengeReply session id account)
  | registration {sid : WString} {account : Option AccountRecord} {id userId : Bytes}
      {session : Session} :
      wideField P H.request (text "sid") = .ok sid → Found P E H sid account →
      Issued P E H b .registration sid id session →
      Told P E H b (text "begin_registration")
        (registrationReply session id userId ((account.map (·.credentials)).getD []))
  | removal {sid : WString} {account : AccountRecord} {id : Bytes} {session : Session} :
      wideField P H.request (text "sid") = .ok sid → Found P E H sid (some account) →
      Issued P E H b .removalAuthorization sid id session →
      Told P E H b (text "begin_remove") (removalReply session id account)
  | authenticated {session : Session} {value : Json} {c : Broker} :
      AtVerification P E H .authentication session value c →
      verifySessionAssertion P E session value c.machine = (.returned (.ok ()), b.machine) →
      Told P E H b (text "finish_auth") okReply
  | registered {session : Session} {registration : RegistrationResult} {c : Broker} {count : Nat} :
      Took P E H .registration session c → MayRegister P E H session registration c.machine →
      storeRegistration P E session registration c.machine = (.returned count, b.machine) →
      Told P E H b (text "commit_registration") (countReply count)
  | removed {op : Bytes} {sid : WString} {credentialId : Bytes} {m : Machine} :
      H.operation = .ok op → Relation.ReflTransGen (Prepares P E H) H.before.machine m →
      MayRemove P E H sid credentialId m →
      removeCredential P E sid credentialId m = (.returned (.ok ()), b.machine) →
      Told P E H b op okReply
  | enforced {sid : WString} {enabled : Bool} {m : Machine} :
      Relation.ReflTransGen (Prepares P E H) H.before.machine m → MayEnforce P E H sid enabled m →
      setEnforced P E sid enabled m = (.returned (.ok ()), b.machine) →
      Told P E H b (text "set_enforcement") okReply

/-! ## The operations -/

section Operations

variable {H : Handling} {b b' : Broker} {j : Json} {v : Vault}

/-- A session that was put is in the table, with its deadline. -/
theorem putSession_returned {session : Session} {id : Bytes}
    (h : putSession E session b = (.returned id, b')) :
    ∃ t, b.machine.tick ≤ t ∧ t < b'.machine.tick ∧ Later b.machine b'.machine ∧
      (id, { session with expiresAt := E.clock t + kSessionLifetime }) ∈ b'.sessions := by
  obtain ⟨hQuiet, live, t, -, -, hFrom, hTo, hSessions⟩ := (meets_putSession session b).of_eq h
  refine ⟨t, hFrom, hTo, hQuiet.later, ?_⟩
  rw [hSessions]
  exact List.mem_append_right _ (List.mem_singleton_self _)

/-- A step of the store that returned. -/
theorem later_of_onMachine {α : Type} {x : Call α} {a : α} (hx : Moves Later x)
    (h : onMachine x b = (.returned a, b')) : Later b.machine b'.machine := by
  obtain ⟨m, hRun, rfl⟩ := zoom_returned_iff.mp h
  have hMoved := hx b.machine
  rwa [hRun] at hMoved

/-- A new session is for the caller and the SID; making it only takes time. -/
theorem new_of_onMachine {kind : SessionKind} {caller : Caller} {sid : WString} {session : Session}
    (h : onMachine (newSession E kind caller sid v) b = (.returned session, b')) :
    session.kind = kind ∧ session.callerSid = caller.sid ∧ session.targetSid = sid ∧
      Later b.machine b'.machine := by
  have hSince := later_of_onMachine ((quiet_newSession _ _ _ _).mono fun _ _ => Quiet.later) h
  obtain ⟨m, hSession, -⟩ := zoom_returned_iff.mp h
  obtain ⟨hKind, hCaller, hTarget⟩ := newSession_returned hSession
  exact ⟨hKind, hCaller, hTarget, hSince⟩

theorem found_of_lookup {sid : WString} {account : Option AccountRecord}
    (hLooks : LooksUp P E H b.machine)
    (h : onMachine (findAccount P E sid) b = (.returned account, b')) :
    Found P E H sid account ∧ Later b.machine b'.machine := by
  have hLater := later_of_onMachine (transacts_later.findAccount sid) h
  obtain ⟨m, hFind, rfl⟩ := zoom_returned_iff.mp h
  exact ⟨⟨_, _, hLooks, hFind⟩, hLater⟩

/-- Once the password was accepted, the account is looked up. -/
theorem lookUp_of_password (hOp : H.operation = .ok (text "begin_registration") ∨
      H.operation = .ok (text "begin_remove")) (hBegun : Begun P E H b)
    {denied unresolved : Bytes} {sid username password name : WString}
    (hSid : wideField P H.request (text "sid") = .ok sid)
    (hUsername : wideField P H.request (text "username") = .ok username)
    (hPassword : extractPassword P H.request = .ok password)
    (h : onMachine (requireLocalPassword E denied unresolved H.caller sid username password) b =
      (.returned name, b')) :
    LooksUp P E H b'.machine ∧ Validated P E H sid b'.machine ∧
      Later H.before.machine b'.machine := by
  have hBefore := later_of_prepares hBegun.prepared
  have hChecked := later_of_onMachine
    ((quiet_requireLocalPassword _ _ _ _ _ _).mono fun _ _ => Quiet.later) h
  obtain ⟨m, hName, rfl⟩ := zoom_returned_iff.mp h
  exact ⟨.validated hOp hBegun hSid hUsername hPassword hName,
    validated_of_requireLocalPassword hSid hUsername hPassword hBefore.tick_le hName,
    hBefore.trans hChecked⟩

theorem told_status (hLooks : LooksUp P E H b.machine)
    (h : status P E H.caller H.request b = (.returned j, b')) :
    Told P E H b' (text "status") j := by
  unfold status at h
  obtain ⟨sid, c, hField, h⟩ := bind_returned_iff.mp h
  obtain ⟨hSid, rfl⟩ := ofExcept_returned_iff.mp hField
  split_ifs at h
  · cases h
  obtain ⟨account, c', hLookup, h⟩ := bind_returned_iff.mp h
  obtain ⟨hFound, -⟩ := found_of_lookup hLooks hLookup
  cases account with
  | none =>
      cases h
      exact .noAccount hSid hFound
  | some account =>
      cases h
      exact .account hSid hFound

/-- The end of `begin_auth` and `begin_test`. -/
theorem told_challengeAccount {op : Bytes} {sid : WString} {account : AccountRecord}
    (hReply : (handle P E H.caller H.request H.before).1 = .returned j)
    (hOp : H.operation = .ok op)
    (hWhich : op = text "begin_auth" ∧ account.enforced = true ∨ op = text "begin_test")
    (hSid : wideField P H.request (text "sid") = .ok sid)
    (hFound : Found P E H sid (some account)) (hFrom : H.before.machine.tick ≤ b.machine.tick)
    (h : challengeAccount E H.caller sid v account b = (.returned j, b')) : Told P E H b' op j := by
  unfold challengeAccount at h
  obtain ⟨session, c, hNew, h⟩ := bind_returned_iff.mp h
  obtain ⟨hKind, hCaller, hTarget, hSince⟩ := new_of_onMachine hNew
  obtain ⟨id, c, hPut, h⟩ := bind_returned_iff.mp h
  obtain ⟨t, hAfter, hBefore, -, hMem⟩ := putSession_returned hPut
  obtain ⟨rfl, rfl⟩ := pure_returned_iff.mp h
  have hDuring : H.During t c.machine := ⟨(hFrom.trans hSince.tick_le).trans hAfter, hBefore⟩
  have hTarget' : wideField P H.request (text "sid") = .ok session.targetSid := hTarget ▸ hSid
  have hOperation : H.operation = .ok (text "begin_auth") ∨ H.operation = .ok (text "begin_test") := by
    rcases hWhich with ⟨rfl, -⟩ | rfl
    · exact .inl hOp
    · exact .inr hOp
  have hTold : Told P E H c op (challengeReply
      { session with expiresAt := E.clock t + kSessionLifetime } id account) := by
    refine .challenge hWhich hSid hFound ⟨hMem, hKind, hTarget, hCaller, hTarget', ⟨t, hDuring, rfl⟩, ?_⟩
    simp only [hKind]
    exact ⟨hOperation, account, hReply⟩
  exact hTold

theorem told_beginAuth (hReply : (handle P E H.caller H.request H.before).1 = .returned j)
    (hOp : H.operation = .ok (text "begin_auth")) (hBegun : Begun P E H b)
    (h : beginAuth P E H.caller H.request v b = (.returned j, b')) :
    Told P E H b' (text "begin_auth") j := by
  unfold beginAuth at h
  obtain ⟨sid, c, hField, h⟩ := bind_returned_iff.mp h
  obtain ⟨hSid, rfl⟩ := ofExcept_returned_iff.mp hField
  split_ifs at h
  · cases h
  obtain ⟨account, c', hLookup, h⟩ := bind_returned_iff.mp h
  obtain ⟨hFound, hLater⟩ := found_of_lookup (.challenge (.inl hOp) hBegun) hLookup
  have hFrom := (later_of_prepares hBegun.prepared).tick_le.trans hLater.tick_le
  cases hFilter : account.filter (·.enforced) with
  | none =>
      rw [hFilter] at h
      dsimp only at h
      obtain ⟨listed, c, hAsked, h⟩ := bind_returned_iff.mp h
      cases listed with
      | true => cases h
      | false =>
          cases h
          exact .unenforced hSid hFound hFilter
  | some enforced =>
      rw [hFilter] at h
      dsimp only at h
      split_ifs at h
      · cases h
      obtain ⟨rfl, hEnforced⟩ := Option.filter_eq_some_iff.mp hFilter
      exact told_challengeAccount hReply hOp (.inl ⟨rfl, hEnforced⟩) hSid hFound hFrom h

theorem told_beginTest (hReply : (handle P E H.caller H.request H.before).1 = .returned j)
    (hOp : H.operation = .ok (text "begin_test")) (hBegun : Begun P E H b)
    (h : beginTest P E H.caller H.request v b = (.returned j, b')) :
    Told P E H b' (text "begin_test") j := by
  unfold beginTest at h
  obtain ⟨sid, c, hField, h⟩ := bind_returned_iff.mp h
  obtain ⟨hSid, rfl⟩ := ofExcept_returned_iff.mp hField
  split_ifs at h
  · cases h
  obtain ⟨account, c', hLookup, h⟩ := bind_returned_iff.mp h
  obtain ⟨hFound, hLater⟩ := found_of_lookup (.challenge (.inr hOp) hBegun) hLookup
  have hFrom := (later_of_prepares hBegun.prepared).tick_le.trans hLater.tick_le
  cases account with
  | none => cases h
  | some account =>
      dsimp only at h
      split_ifs at h
      · cases h
      exact told_challengeAccount hReply hOp (.inr rfl) hSid hFound hFrom h

theorem told_beginRegistration
    (hOp : H.operation = .ok (text "begin_registration")) (hBegun : Begun P E H b)
    (h : beginRegistration P E H.caller H.request v b = (.returned j, b')) :
    Told P E H b' (text "begin_registration") j := by
  unfold beginRegistration at h
  obtain ⟨sid, c, hField, h⟩ := bind_returned_iff.mp h
  obtain ⟨hSid, rfl⟩ := ofExcept_returned_iff.mp hField
  obtain ⟨username, c, hField, h⟩ := bind_returned_iff.mp h
  obtain ⟨hUsername, rfl⟩ := ofExcept_returned_iff.mp hField
  obtain ⟨password, c, hField, h⟩ := bind_returned_iff.mp h
  obtain ⟨hPassword, rfl⟩ := ofExcept_returned_iff.mp hField
  obtain ⟨name, c₁, hRequire, h⟩ := bind_returned_iff.mp h
  obtain ⟨hLooks, hValid, hFrom⟩ :=
    lookUp_of_password (.inl hOp) hBegun hSid hUsername hPassword hRequire
  obtain ⟨account, c₂, hLookup, h⟩ := bind_returned_iff.mp h
  obtain ⟨hFound, hLater⟩ := found_of_lookup hLooks hLookup
  split_ifs at h
  · cases h
  obtain ⟨label, c, hField, h⟩ := bind_returned_iff.mp h
  obtain ⟨-, rfl⟩ := ofExcept_returned_iff.mp hField
  obtain ⟨session, c₃, hNew, h⟩ := bind_returned_iff.mp h
  obtain ⟨hKind, hCaller, hTarget, hSince⟩ := new_of_onMachine hNew
  obtain ⟨id, c₄, hPut, h⟩ := bind_returned_iff.mp h
  obtain ⟨t, hAfter, hBefore, hPutting, hMem⟩ := putSession_returned hPut
  obtain ⟨registration, c₅, hCreate, h⟩ := bind_returned_iff.mp h
  have hLast := later_of_onMachine
    ((quiet_createRegistrationChallenge _ _).mono fun _ _ => Quiet.later) hCreate
  obtain ⟨m', hChallenge, rfl⟩ := zoom_returned_iff.mp hCreate
  obtain ⟨rfl, rfl⟩ := pure_returned_iff.mp h
  unfold createRegistrationChallenge at hChallenge
  obtain ⟨userId, n, -, hChallenge⟩ := bind_returned_iff.mp hChallenge
  split_ifs at hChallenge
  · cases hChallenge
  cases hChallenge
  have hDuring : H.During t c₄.machine :=
    ⟨(hFrom.trans (hLater.trans hSince)).tick_le.trans hAfter, hBefore⟩
  have hTarget' : wideField P H.request (text "sid") = .ok session.targetSid := hTarget ▸ hSid
  -- the password was checked before; what came since only made the machine later
  have hTold : Told P E H (c₄.setMachine m') (text "begin_registration") (registrationReply
      { session with username := name, label, expiresAt := E.clock t + kSessionLifetime } id userId
      ((account.map (·.credentials)).getD [])) := by
    refine .registration hSid hFound ⟨hMem, hKind, hTarget, hCaller, hTarget',
      ⟨t, hDuring.mono hLast, rfl⟩, ?_⟩
    simp only [hKind]
    refine ⟨hOp, ?_⟩
    rw [hTarget]
    exact hValid.mono (hLater.trans (hSince.trans (hPutting.trans hLast)))
  exact hTold

theorem account_of_requireRemovable {request : Json} {found : Option AccountRecord}
    {account : AccountRecord} {credentialId : Bytes}
    (h : requireRemovable found request = .ok (account, credentialId)) :
    found = some account := by
  unfold requireRemovable at h
  cases found with
  | none => cases h
  | some found =>
      dsimp only at h
      split_ifs at h
      obtain ⟨id, -, h⟩ := except_bind_eq_ok.mp h
      split_ifs at h
      cases h
      rfl

theorem told_beginRemove (hOp : H.operation = .ok (text "begin_remove")) (hBegun : Begun P E H b)
    (h : beginRemove P E H.caller H.request v b = (.returned j, b')) :
    Told P E H b' (text "begin_remove") j := by
  unfold beginRemove at h
  obtain ⟨sid, c, hField, h⟩ := bind_returned_iff.mp h
  obtain ⟨hSid, rfl⟩ := ofExcept_returned_iff.mp hField
  obtain ⟨username, c, hField, h⟩ := bind_returned_iff.mp h
  obtain ⟨hUsername, rfl⟩ := ofExcept_returned_iff.mp hField
  obtain ⟨password, c, hField, h⟩ := bind_returned_iff.mp h
  obtain ⟨hPassword, rfl⟩ := ofExcept_returned_iff.mp hField
  obtain ⟨name, c₁, hRequire, h⟩ := bind_returned_iff.mp h
  obtain ⟨hLooks, hValid, hFrom⟩ :=
    lookUp_of_password (.inr hOp) hBegun hSid hUsername hPassword hRequire
  obtain ⟨found, c₂, hLookup, h⟩ := bind_returned_iff.mp h
  obtain ⟨hFound, hLater⟩ := found_of_lookup hLooks hLookup
  obtain ⟨⟨account, credentialId⟩, c₃, hField, hRest⟩ := bind_returned_iff.mp h
  obtain ⟨hRemovable, rfl⟩ := ofExcept_returned_iff.mp hField
  obtain rfl := account_of_requireRemovable hRemovable
  have hId := credentialId_of_requireRemovable hRemovable
  obtain ⟨session, c₄, hNew, hRest⟩ := bind_returned_iff.mp hRest
  obtain ⟨hKind, hCaller, hTarget, hSince⟩ := new_of_onMachine hNew
  obtain ⟨id, c₅, hPut, hRest⟩ := bind_returned_iff.mp hRest
  obtain ⟨t, hAfter, hBefore, hPutting, hMem⟩ := putSession_returned hPut
  obtain ⟨rfl, rfl⟩ := pure_returned_iff.mp hRest
  have hDuring : H.During t c₅.machine :=
    ⟨(hFrom.trans (hLater.trans hSince)).tick_le.trans hAfter, hBefore⟩
  have hTarget' : wideField P H.request (text "sid") = .ok session.targetSid := hTarget ▸ hSid
  have hTold : Told P E H c₅ (text "begin_remove") (removalReply { session with
      username := name, credentialToRemove := credentialId,
      expiresAt := E.clock t + kSessionLifetime } id account) := by
    refine .removal hSid hFound ⟨hMem, hKind, hTarget, hCaller, hTarget', ⟨t, hDuring, rfl⟩, ?_⟩
    simp only [hKind]
    refine ⟨hOp, ?_, hId⟩
    rw [hTarget]
    exact hValid.mono (hLater.trans (hSince.trans hPutting))
  exact hTold

end Operations

/-- A program with this outcome and this state. -/
theorem eq_of_outcome {σ α : Type} {x : Program σ Bytes α} {s : σ} {o : Outcome Bytes α}
    (h : (x s).1 = o) : x s = (o, (x s).2) := by
  rw [← h]

/-- A transaction that is answered went through. -/
theorem told_of_conducted {H : Handling} {b : Broker} {op : Bytes} {j : Json}
    (hConducted : Conducted P E H (.returned j) b) (hOp : H.operation = .ok op)
    (hTransaction : op ∈ transactions) : Told P E H b op j := by
  obtain ⟨m, hPrepared, hEnd⟩ := hConducted.store
  generalize hReply : Outcome.returned j = o at hEnd
  generalize hMachine : b.machine = n at hEnd
  cases hEnd with
  | without hNone => exact absurd hTransaction (hNone j op hReply.symm hOp)
  | verify hAt hEchoes =>
      obtain ⟨other, hVerifying, hOther⟩ := hAt.operation
      cases hVerifying
      obtain rfl := Except.ok.inj (hOp.symm.trans hOther)
      have hDone := hEchoes.2 j hReply.symm
      obtain rfl := Outcome.returned.inj (hReply.trans (hEchoes.1 hDone))
      exact .authenticated hAt (hMachine ▸ eq_of_outcome hDone)
  | register hTook hMay hEnd =>
      obtain rfl := Except.ok.inj (hOp.symm.trans hMay.operation)
      rcases hEnd with ⟨count, hDone, hCount⟩ | ⟨-, hNone⟩
      · obtain rfl := Outcome.returned.inj (hReply.trans hCount)
        exact .registered hTook hMay (hMachine ▸ eq_of_outcome hDone)
      · exact absurd hReply.symm (hNone j)
  | remove hMay hEchoes =>
      have hDone := hEchoes.2 j hReply.symm
      obtain rfl := Outcome.returned.inj (hReply.trans (hEchoes.1 hDone))
      exact .removed hOp hPrepared hMay (hMachine ▸ eq_of_outcome hDone)
  | enforce hMay hEchoes =>
      obtain rfl := Except.ok.inj (hOp.symm.trans hMay.operation)
      have hDone := hEchoes.2 j hReply.symm
      obtain rfl := Outcome.returned.inj (hReply.trans (hEchoes.1 hDone))
      exact .enforced hPrepared hMay (hMachine ▸ eq_of_outcome hDone)

/-- Every reply of `Handle` tells what its operation found and did. -/
theorem told_of_handle {H : Handling} {b : Broker} {op : Bytes} {j : Json}
    (hOp : H.operation = .ok op)
    (h : handle P E H.caller H.request H.before = (.returned j, b)) : Told P E H b op j := by
  have hConducted : Conducted P E H (.returned j) b := (handle_conducts H).of_eq h
  by_cases hTransaction : op ∈ transactions
  · exact told_of_conducted hConducted hOp hTransaction
  -- the operations that end with no transaction are read one by one
  obtain ⟨m, hRefresh, hDispatch⟩ := handle_returned hOp h
  unfold dispatch at hDispatch
  by_cases hStatus : op = text "status"
  · rw [if_pos hStatus] at hDispatch
    subst hStatus
    exact told_status (.status hOp hRefresh) hDispatch
  rw [if_neg hStatus] at hDispatch
  obtain ⟨r, c, hLoading, hDispatch⟩ := bind_returned_iff.mp hDispatch
  obtain ⟨n, hLoad, rfl⟩ := zoom_returned_iff.mp hLoading
  have hReply : (handle P E H.caller H.request H.before).1 = .returned j := congrArg Prod.fst h
  cases r with
  | error e => cases hDispatch
  | ok v =>
      have hBegun : Begun P E H ((H.before.setMachine m).setMachine n) :=
        ⟨m, n, v, hRefresh, hLoad, rfl⟩
      dsimp only at hDispatch
      split_ifs at hDispatch with h₁ h₂ h₃ h₄ h₅ h₆ h₇ h₈ h₉
      · exact h₁ ▸ told_beginAuth hReply (h₁ ▸ hOp) hBegun hDispatch
      · exact absurd (h₂ ▸ by decide) hTransaction
      · exact h₃ ▸ told_beginTest hReply (h₃ ▸ hOp) hBegun hDispatch
      · exact h₄ ▸ told_beginRegistration (h₄ ▸ hOp) hBegun hDispatch
      · exact absurd (h₅ ▸ by decide) hTransaction
      · exact h₆ ▸ told_beginRemove (h₆ ▸ hOp) hBegun hDispatch
      · exact absurd (h₇ ▸ by decide) hTransaction
      · exact absurd (h₈ ▸ by decide) hTransaction
      · exact absurd (h₉ ▸ by decide) hTransaction
      · cases hDispatch

/-- A request that is answered was answered with the reply of `Handle`, or with what it
threw. -/
theorem handle_of_serve {pipe : PipeClient} {input output : Bytes} {caller : Caller}
    {request : Json} {b : Broker} {ok : Bool}
    (hOpen : openRequest P pipe input = .ok (caller, request))
    (hServed : (serve P E pipe input b).1 = some (output, ok)) :
    (∃ j, handle P E caller request b = (.returned j, (serve P E pipe input b).2) ∧
        P.dump j = .ok output) ∨
      ∃ what, handle P E caller request b = (.threw what, (serve P E pipe input b).2) ∧
        P.dump (errorReply what) = .ok output := by
  unfold serve at hServed ⊢
  rw [processRequest_apply, answer_of_openRequest hOpen] at hServed ⊢
  rcases hHandle : handle P E caller request b with ⟨j | what | _, b'⟩ <;> rw [hHandle] at hServed
  · dsimp only at hServed ⊢
    cases hPrinted : printed P j with
    | returned reply =>
        rw [hPrinted] at hServed
        cases hServed
        exact .inl ⟨j, rfl, (printed_eq_returned.mp hPrinted).1⟩
    | threw e =>
        rw [hPrinted] at hServed
        cases hServed
    | stopped =>
        rw [hPrinted] at hServed
        cases hServed
  · dsimp only at hServed ⊢
    cases hPrinted : printed P (errorReply what) with
    | returned reply =>
        rw [hPrinted] at hServed
        cases hServed
        exact .inr ⟨what, rfl, (printed_eq_returned.mp hPrinted).1⟩
    | threw e =>
        rw [hPrinted] at hServed
        cases hServed
    | stopped =>
        rw [hPrinted] at hServed
        cases hServed
  · cases hServed

end BrokerService
end WindowsFidoLogon
