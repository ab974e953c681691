import WindowsFidoLogon.Broker.FailClosed
import WindowsFidoLogon.Broker.SessionRuns
import WindowsFidoLogon.Broker.Wire
import WindowsFidoLogon.Credential.Identity

/-!
# Signing in

A tile in LogonUI and the Broker in its service, put together.  The tile asks the Broker
through the pipe and the published policy in the registry; between its questions the Broker
serves other clients, may be restarted, and may find its vault file changed.  `Interleaved`
relates what a tile has done to the events of the Broker, in any order the two can have.

`logon_backed` is the purpose of the program: no logon leaves a tile unless the Broker let
the account through, or accepted an assertion for a challenge that it had given out for
this account.
-/

namespace WindowsFidoLogon
namespace SignIn

open Text BrokerService BrokerClient LocalCredentialStore Tile

/-! ## The two sides -/

/-- What `Connect` gets from `BeginAuthentication`. -/
def challengeIn : Ending → Option AuthenticationChallenge
  | .returned (.challenge challenge) => some challenge
  | _ => none

/-- What `Connect` gets from `FinishAuthentication`. -/
def isAccepted : Ending → Bool
  | .returned _ => true
  | _ => false

/-- An act that asks neither the Broker nor the registry. -/
def IsOwn : Act → Prop
  | .resolved .. | .cancelled | .reset => True
  | _ => False

section Sides

variable (P : Platform) (E : Environment) (pipe : PipeClient) (b₀ : Broker)

/-- The call is sent as `message`, and the Broker's reply after the events `es` ends it. -/
structure Answers (es : List Event) (call : BrokerClient.Call) (message : Bytes)
    (ending : Ending) : Prop where
  sent : callMessage P (call.request P) = .ok message
  served : ∃ output ok, (serve P E pipe message (run P E b₀ es)).1 = some (output, ok) ∧
    call.receive P (pipeResponse output) = ending

/-- How an act of the tile takes the events of the Broker further.  A call that gets no
answer fails, whether or not the Broker handled it. -/
inductive Happens (es : List Event) : Act → List Event → Prop
  | own {act : Act} : IsOwn act → Happens es act es
  | begun {sid : WString} {message : Bytes} {ending : Ending} :
      Answers P E pipe b₀ es (.beginAuthentication sid) message ending →
      Happens es (.begun sid (challengeIn ending)) (es ++ [.request pipe message])
  | notBegun (sid : WString) : Happens es (.begun sid none) es
  | finished {id message : Bytes} {assertion : FIDOSignResponse} {ending : Ending} :
      Answers P E pipe b₀ es (.finishAuthentication id assertion) message ending →
      Happens es (.finished id (isAccepted ending)) (es ++ [.request pipe message])
  | notFinished (id : Bytes) : Happens es (.finished id false) es
  | policyChecked {sid : WString} {enforced : Bool} {m : Machine} :
      m.registry = (run P E b₀ es).machine.registry →
      (isSidEnforced E sid m).1 = .returned enforced → Happens es (.policyChecked sid enforced) es

/-- The events of the Broker since `b₀` and the acts of a tile, the latest first, in one
order.  The tile began after the events `before`. -/
inductive Interleaved (before : List Event) : List Event → List Act → Prop
  | start : Interleaved before before []
  | other {es : List Event} {acts : List Act} (e : Event) :
      Interleaved before es acts → Interleaved before (es ++ [e]) acts
  | act {es es' : List Event} {acts : List Act} {act : Act} :
      Happens P E pipe b₀ es act es' → Interleaved before es acts →
      Interleaved before es' (act :: acts)

end Sides

variable {P : Platform} {E : Environment} {pipe : PipeClient} {b₀ : Broker} {before : List Event}

theorem Happens.extends {es es' : List Event} {act : Act} (h : Happens P E pipe b₀ es act es') :
    ∃ tail, es' = es ++ tail := by
  cases h with
  | begun _ | finished _ => exact ⟨_, rfl⟩
  | own _ | notBegun _ | notFinished _ | policyChecked _ _ => exact ⟨[], (List.append_nil _).symm⟩

namespace Interleaved

/-- When a tile was at an earlier point, the Broker was at one too. -/
theorem earlier {es : List Event} {newer older : List Act}
    (h : Interleaved P E pipe b₀ before es (newer ++ older)) :
    ∃ pre post, es = pre ++ post ∧ Interleaved P E pipe b₀ before pre older := by
  generalize hActs : newer ++ older = acts at h
  induction h generalizing newer with
  | start =>
      obtain ⟨rfl, rfl⟩ := List.append_eq_nil_iff.mp hActs
      exact ⟨before, [], (List.append_nil _).symm, .start⟩
  | other e _ ih =>
      obtain ⟨pre, post, rfl, hPre⟩ := ih hActs
      exact ⟨pre, post ++ [e], by simp, hPre⟩
  | act hHappens hRest ih =>
      cases newer with
      | nil =>
          rw [List.nil_append] at hActs
          subst hActs
          exact ⟨_, [], (List.append_nil _).symm, .act hHappens hRest⟩
      | cons a newer =>
          obtain ⟨pre, post, rfl, hPre⟩ := ih (List.cons.inj hActs).2
          obtain ⟨tail, rfl⟩ := hHappens.extends
          exact ⟨pre, post ++ tail, by simp, hPre⟩

theorem begins {es : List Event} {acts : List Act} (h : Interleaved P E pipe b₀ before es acts) :
    before <+: es := by
  induction h with
  | start => exact List.prefix_rfl
  | other e _ ih => exact ih.trans (List.prefix_append _ _)
  | act hHappens _ ih =>
      obtain ⟨tail, rfl⟩ := hHappens.extends
      exact ih.trans (List.prefix_append _ _)

/-- The latest act happened at some point, and the Broker went on from there. -/
theorem last {es : List Event} {act : Act} {acts : List Act}
    (h : Interleaved P E pipe b₀ before es (act :: acts)) :
    ∃ pre pre' post, Interleaved P E pipe b₀ before pre acts ∧ Happens P E pipe b₀ pre act pre' ∧
      es = pre' ++ post := by
  generalize hActs : act :: acts = all at h
  induction h with
  | start => cases hActs
  | other e _ ih =>
      obtain ⟨pre, pre', post, hPre, hHappens, rfl⟩ := ih hActs
      exact ⟨pre, pre', post ++ [e], hPre, hHappens, by simp⟩
  | act hHappens hRest _ =>
      cases hActs
      exact ⟨_, _, [], hRest, hHappens, (List.append_nil _).symm⟩

end Interleaved

/-- The latest `BeginAuthentication` among the acts. -/
theorem of_lastBegun {acts : List Act} {sid : WString} {reply : Option AuthenticationChallenge}
    (h : lastBegun acts = some (sid, reply)) :
    ∃ newer older, acts = newer ++ .begun sid reply :: older := by
  induction acts with
  | nil => cases h
  | cons act acts ih =>
      cases act with
      | begun sid' reply' =>
          cases h
          exact ⟨[], acts, rfl⟩
      | resolved _ _ | policyChecked _ _ | finished _ _ | cancelled | reset =>
          obtain ⟨newer, older, rfl⟩ := ih h
          exact ⟨_ :: newer, older, rfl⟩

/-! ## What an answer means -/

section Answers

variable (hParses : P.ParsesDumps) (hPrints : P.PrintsCompactly) (hObjects : P.ParsesObjects)
  {caller : Caller} (hCaller : getCaller pipe = .ok caller)
include hParses hPrints hObjects hCaller

/-- An answer that is not a refusal tells what the Broker did. -/
theorem Answers.learns {es : List Event} {call : BrokerClient.Call} {message : Bytes}
    {result : Result} (h : Answers P E pipe b₀ es call message (.returned result)) :
    openRequest P pipe message = .ok (caller, envelope (call.request P)) ∧
      Learns P E ⟨run P E b₀ es, caller, envelope (call.request P)⟩
        (run P E b₀ (es ++ [.request pipe message])) (call.transcoded P) result := by
  obtain ⟨output, ok, hServed, hEnds⟩ := h.served
  have hConcludes := concludes_of_served hParses hPrints hObjects h.sent hCaller hServed
  rw [hEnds] at hConcludes
  rw [run_concat]
  cases hConcludes with
  | returned _ hLearns =>
      exact ⟨openRequest_callMessage hParses hPrints h.sent hCaller, hLearns⟩

end Answers

/-! ## What stands behind a sign-in -/

/-- The Broker, after the events `pre`, answered `first`, a `begin_auth` for `sid`: it found
the account enforced, and opened the session `id` for it. -/
structure Begins (P : Platform) (E : Environment) (pipe : PipeClient) (b₀ : Broker)
    (pre : List Event) (first : Bytes) (sid : WString) (id : Bytes) (session : Session) : Prop where
  asked : ∃ caller request, openRequest P pipe first = .ok (caller, request) ∧
    request.valueOr Json.getString (text "op") [] = .ok (text "begin_auth") ∧
    wideField P request (text "sid") = .ok sid ∧
    ∃ account, Found P E ⟨run P E b₀ pre, caller, request⟩ sid (some account) ∧
      account.enforced = true
  opened : OpenedBy P E (run P E b₀ pre) (.request pipe first) id session
  handedOut : HandsOut P E (run P E b₀ pre) (.request pipe first) id session
  kind : session.kind = .authentication
  targetSid : session.targetSid = sid

/-- The Broker, after the events `before`, answered `second` with `ok`: it is a `finish_auth`
that names the session `id`, and its assertion was accepted for this session by the
credentials in store when the request came to verify it. -/
structure Finishes (P : Platform) (E : Environment) (pipe : PipeClient) (b₀ : Broker)
    (before : List Event) (second : Bytes) (id : Bytes) (session : Session) : Prop where
  answered : ∃ output, (serve P E pipe second (run P E b₀ before)).1 = some (output, true)
  accepted : ∃ caller request value b, openRequest P pipe second = .ok (caller, request) ∧
    request.valueOr Json.getString (text "op") [] = .ok (text "finish_auth") ∧
    stringField request (text "sessionId") = .ok id ∧
    Handling.AtVerification P E ⟨run P E b₀ before, caller, request⟩ .authentication session value b ∧
    verifySessionAssertion P E session value b.machine =
      (.returned (.ok ()), (run P E b₀ (before ++ [.request pipe second])).machine) ∧
    Accepts P E session value b.machine

/-- A request for a challenge came after the events `pre`, and the request to finish it
after `mid`, less than 120 seconds later: the first opened the session `id` for the enforced
account `sid`, and the second had its assertion accepted for it. -/
structure Proves (P : Platform) (E : Environment) (pipe : PipeClient) (b₀ : Broker)
    (pre mid : List Event) (first second : Bytes) (sid : WString) (id : Bytes)
    (session : Session) : Prop where
  begins : Begins P E pipe b₀ pre first sid id session
  finishes : Finishes P E pipe b₀ (pre ++ .request pipe first :: mid) second id session
  inTime : ∃ t t', (run P E b₀ pre).machine.tick ≤ t ∧
    t < (run P E b₀ (pre ++ [.request pipe first])).machine.tick ∧
    (run P E b₀ (pre ++ .request pipe first :: mid)).machine.tick ≤ t' ∧
    t' < (run P E b₀ (pre ++ .request pipe first :: mid ++ [.request pipe second])).machine.tick ∧
    E.clock t' < E.clock t + kSessionLifetime

/-- Among the events after `before`, an assertion was accepted for a challenge of `sid`. -/
def Verified (P : Platform) (E : Environment) (pipe : PipeClient) (b₀ : Broker)
    (before es : List Event) (sid : WString) : Prop :=
  ∃ pre mid post first second id session, before <+: pre ∧
    es = pre ++ .request pipe first :: mid ++ .request pipe second :: post ∧
    Proves P E pipe b₀ pre mid first second (transcoded P sid) id session

/-- What stands behind a sign-in of `sid`, after the events `before`: the Broker found no
enforcement and the policy agreed, or an assertion was accepted for a challenge of this
account. -/
inductive Backed (P : Platform) (E : Environment) (pipe : PipeClient) (b₀ : Broker)
    (before es : List Event) (sid : WString) : Prop
  | unenforced {pre mid post : List Event} {message : Bytes} {m : Machine} : before <+: pre →
      es = pre ++ .request pipe message :: mid ++ post →
      LetThrough P E (run P E b₀ pre) (.request pipe message) (transcoded P sid) →
      m.registry = (run P E b₀ (pre ++ .request pipe message :: mid)).machine.registry →
      (isSidEnforced E sid m).1 = .returned false → Backed P E pipe b₀ before es sid
  | verified : Verified P E pipe b₀ before es sid → Backed P E pipe b₀ before es sid

theorem Backed.later {es post : List Event} {sid : WString} (h : Backed P E pipe b₀ before es sid) :
    Backed P E pipe b₀ before (es ++ post) sid := by
  cases h with
  | unenforced hPre hEs hThrough hRegistry hPolicy =>
      exact .unenforced hPre (by rw [hEs, List.append_assoc]) hThrough hRegistry hPolicy
  | verified hVerified =>
      obtain ⟨pre, mid, rest, first, second, id, session, hPre, rfl, hProves⟩ := hVerified
      exact .verified ⟨pre, mid, rest ++ post, first, second, id, session, hPre, by simp, hProves⟩

theorem Happens.of_begun {es es' : List Event} {sid : WString} {challenge : AuthenticationChallenge}
    (h : Happens P E pipe b₀ es (.begun sid (some challenge)) es') :
    ∃ message, es' = es ++ [.request pipe message] ∧
      Answers P E pipe b₀ es (.beginAuthentication sid) message (.returned (.challenge challenge)) := by
  generalize hReply : some challenge = reply at h
  cases h with
  | own hOwn => exact absurd hOwn (fun h => h)
  | @begun _ message ending hAnswers =>
      refine ⟨message, rfl, ?_⟩
      unfold challengeIn at hReply
      split at hReply
      · cases hReply
        exact hAnswers
      · cases hReply
  | notBegun => cases hReply

theorem Happens.of_finished {es es' : List Event} {id : Bytes}
    (h : Happens P E pipe b₀ es (.finished id true) es') :
    ∃ message assertion result, es' = es ++ [.request pipe message] ∧
      Answers P E pipe b₀ es (.finishAuthentication id assertion) message (.returned result) := by
  generalize hTrue : true = accepted at h
  cases h with
  | own hOwn => exact absurd hOwn (fun h => h)
  | @finished _ message assertion ending hAnswers =>
      unfold isAccepted at hTrue
      split at hTrue
      · exact ⟨message, assertion, _, rfl, hAnswers⟩
      · cases hTrue
  | notFinished => cases hTrue

theorem mem_of_findSession {id : Bytes} {sessions : List (Bytes × Session)} {session : Session}
    (h : findSession id sessions = some session) : (id, session) ∈ sessions := by
  obtain ⟨entry, hEntry, rfl⟩ := Option.map_eq_some_iff.mp h
  have hSame : entry.1 = id := by simpa using List.find?_some hEntry
  rw [← hSame]
  exact List.mem_of_find?_eq_some hEntry

section Backing

variable (hParses : P.ParsesDumps) (hPrints : P.PrintsCompactly) (hObjects : P.ParsesObjects)
  {caller : Caller} (hCaller : getCaller pipe = .ok caller)
include hParses hPrints hObjects hCaller

/-- A password that was accepted without a key: the Broker let the account through. -/
theorem backed_of_notEnforced {es : List Event} {sid : WString} {older : List Act}
    {challenge : AuthenticationChallenge} (hEnforced : challenge.enforced = false)
    (h : Interleaved P E pipe b₀ before es
      (.policyChecked sid false :: .begun sid (some challenge) :: older)) :
    Backed P E pipe b₀ before es sid := by
  obtain ⟨checked, checked', post, hBefore, hChecked, rfl⟩ := h.last
  obtain ⟨pre, begun', mid, hPre, hBegun, rfl⟩ := hBefore.last
  obtain ⟨message, rfl, hAnswers⟩ := hBegun.of_begun
  obtain ⟨hOpen, hLearns⟩ := hAnswers.learns hParses hPrints hObjects hCaller
  have hReads := reads_envelope (P := P) (.beginAuthentication sid)
  have hTold : Learns P E ⟨run P E b₀ pre, caller, envelope _⟩ _ (.beginAuthentication (transcoded P sid))
      (.challenge challenge) := hLearns
  have hSid : wideField P (envelope ((Call.beginAuthentication sid).request P)) (text "sid") =
      .ok (transcoded P sid) := rfl
  cases hTold with
  | enforced => cases hEnforced
  | unenforced _ _ hHandle =>
      have hThrough : LetThrough P E (run P E b₀ pre) (.request pipe message) (transcoded P sid) :=
        ⟨pipe, message, caller, _, _, rfl, hOpen, hReads.operation, hSid, wcsicmpEq_refl _, hHandle⟩
      have hSplit : pre ++ [.request pipe message] ++ mid = pre ++ .request pipe message :: mid := by
        simp
      cases hChecked with
      | own hOwn => exact absurd hOwn (fun h => h)
      | policyChecked hRegistry hPolicy =>
          rw [hSplit] at hRegistry ⊢
          exact .unenforced hPre.begins rfl hThrough hRegistry hPolicy

omit hParses hPrints hObjects hCaller in
/-- A session that the client was given was opened by its request. -/
theorem openedBy_of_issued {es : List Event} {call : BrokerClient.Call} {message : Bytes}
    {ending : Ending} {kind : SessionKind} {sid : WString} {id : Bytes} {session : Session}
    (h : Answers P E pipe b₀ es call message ending)
    (hOpen : openRequest P pipe message = .ok (caller, envelope (call.request P)))
    (hIssued : Issued P E ⟨run P E b₀ es, caller, envelope (call.request P)⟩
      (run P E b₀ (es ++ [.request pipe message])) kind sid id session) :
    OpenedBy P E (run P E b₀ es) (.request pipe message) id session := by
  obtain ⟨output, ok, hServed, -⟩ := h.served
  have hMachine := (serve_handled (P := P) (E := E) (b := run P E b₀ es) hOpen (Prod.ext rfl rfl)).1
  have hOpened := hIssued.opened
  rw [run_concat] at hOpened
  refine ⟨pipe, message, caller, _, _, _, rfl, hOpen, rfl, hMachine, ?_, fun j hj => ?_⟩
  · rw [← hMachine]
    exact hOpened
  · exact ⟨output, ok, hServed, printed_of_served hOpen (Prod.ext hj rfl) hServed⟩

omit hParses hPrints hObjects hCaller in
/-- A `BeginAuthentication` that was given a session began the authentication. -/
theorem begins_of_issued {pre : List Event} {sid : WString} {first : Bytes} {ending : Ending}
    {account : AccountRecord} {id : Bytes} {session : Session}
    (h : Answers P E pipe b₀ pre (.beginAuthentication sid) first ending)
    (hOpen : openRequest P pipe first =
      .ok (caller, envelope ((Call.beginAuthentication sid).request P)))
    (hFound : Found P E ⟨run P E b₀ pre, caller, envelope ((Call.beginAuthentication sid).request P)⟩
      (transcoded P sid) (some account)) (hEnforced : account.enforced = true)
    (hIssued : Issued P E
      ⟨run P E b₀ pre, caller, envelope ((Call.beginAuthentication sid).request P)⟩
      (run P E b₀ (pre ++ [.request pipe first])) .authentication (transcoded P sid) id session) :
    Begins P E pipe b₀ pre first (transcoded P sid) id session :=
  have hOpened := openedBy_of_issued h hOpen hIssued
  { asked := ⟨caller, _, hOpen, (reads_envelope (.beginAuthentication sid)).operation, rfl, account,
      hFound, hEnforced⟩
    opened := hOpened
    handedOut := handsOut_of_openedBy hOpened hIssued.kind
    kind := hIssued.kind
    targetSid := hIssued.targetSid }

omit hParses hPrints hObjects hCaller in
/-- A `FinishAuthentication` whose assertion was accepted finished the authentication. -/
theorem finishes_of_verified {es : List Event} {id second : Bytes} {assertion : FIDOSignResponse}
    {ending : Ending} {session : Session} {value : Json} {b : Broker}
    (h : Answers P E pipe b₀ es (.finishAuthentication id assertion) second ending)
    (hOpen : openRequest P pipe second =
      .ok (caller, envelope ((Call.finishAuthentication id assertion).request P)))
    (hAt : Handling.AtVerification P E
      ⟨run P E b₀ es, caller, envelope ((Call.finishAuthentication id assertion).request P)⟩
      .authentication session value b)
    (hVerified : verifySessionAssertion P E session value b.machine =
      (.returned (.ok ()), (run P E b₀ (es ++ [.request pipe second])).machine)) :
    Finishes P E pipe b₀ es second id session := by
  obtain ⟨output, ok, hServed, -⟩ := h.served
  have hPrinted := printed_of_served hOpen (hAt.handle_auth hVerified) hServed
  obtain rfl : true = ok := Except.ok.inj (printed_eq_returned.mp hPrinted).2
  exact ⟨⟨output, hServed⟩, caller, _, value, b, hOpen,
    (reads_envelope (.finishAuthentication id assertion)).operation, rfl, hAt, hVerified,
    accepts_of_verifySessionAssertion hVerified⟩

/-- A key that was accepted: its session was opened for the account. -/
theorem backed_of_keyVerified (hClock : Monotone E.clock) (hOnce : DrawsOnce E)
    (h₀ : b₀.sessions = []) {es : List Event} {sid : WString} {older : List Act}
    {challenge : AuthenticationChallenge} (hBegun : lastBegun older = some (sid, some challenge))
    (h : Interleaved P E pipe b₀ before es (.finished challenge.sessionId true :: older)) :
    Backed P E pipe b₀ before es sid := by
  obtain ⟨newer, begun, rfl⟩ := of_lastBegun hBegun
  -- the requests of the two calls, the second and then the first
  obtain ⟨asked, finished', post, hBefore, hFinished, rfl⟩ := h.last
  obtain ⟨second, assertion, result, rfl, hSecond⟩ := hFinished.of_finished
  obtain ⟨upTo, rest, rfl, hUpTo⟩ := hBefore.earlier
  obtain ⟨pre, first', mid, hPre, hFirst, rfl⟩ := hUpTo.last
  obtain ⟨first, rfl, hAnswers⟩ := hFirst.of_begun
  obtain ⟨hAsked, hLearns⟩ := hAnswers.learns hParses hPrints hObjects hCaller
  have hSplit : pre ++ [.request pipe first] ++ mid ++ rest =
      pre ++ .request pipe first :: (mid ++ rest) := by simp
  rw [hSplit] at hSecond ⊢
  obtain ⟨hOpen, hLearnsSecond⟩ := hSecond.learns hParses hPrints hObjects hCaller
  have hGiven : Learns P E ⟨run P E b₀ pre, caller, envelope _⟩ _
      (.beginAuthentication (transcoded P sid)) (.challenge challenge) := hLearns
  have hTaken : Learns P E ⟨_, caller, envelope _⟩ _
      (.finishAuthentication challenge.sessionId assertion) result := hLearnsSecond
  cases hTaken with
  | @authenticated _ _ session value b hAt _ hVerified =>
      obtain ⟨id, t', hId, hLength, hFound, hDuring, hCheck⟩ := hAt.enters
      obtain rfl : challenge.sessionId = id := Except.ok.inj hId
      -- a tile that was let through has no identifier to finish with
      cases hGiven with
      | unenforced => cases hLength
      | @enforced _ account id given hAccount hEnforced hIssued =>
          -- identifiers are drawn once, so the session taken is the one that was opened
          have hThere := mem_of_findSession hFound
          have hTail : pre ++ .request pipe first :: (mid ++ rest) =
              pre ++ [.request pipe first] ++ (mid ++ rest) := by simp
          obtain rfl : session = given :=
            same_session hClock hOnce h₀ hIssued.mem (by rwa [hTail] at hThere)
          have hBegins := begins_of_issued hAnswers hAsked hAccount hEnforced hIssued
          have hFinishes := finishes_of_verified hSecond hOpen hAt hVerified
          obtain ⟨t, hRead, hExpires⟩ := openedBy_deadline hBegins.opened
          have hAlive := (checkSession_ok hCheck).1
          rw [hExpires] at hAlive
          have hProves : Proves P E pipe b₀ pre (mid ++ rest) first second (transcoded P sid)
              id session := by
            refine ⟨hBegins, hFinishes, t, t', hRead.1, ?_, hDuring.1,
              hDuring.2.trans_le (later_of_verified hVerified).tick_le, hAlive⟩
            rw [run_concat]
            exact hRead.2
          have hEvents : pre ++ .request pipe first :: (mid ++ rest) ++ [.request pipe second] ++ post =
              pre ++ .request pipe first :: (mid ++ rest) ++ .request pipe second :: post := by simp
          rw [hEvents]
          exact .verified ⟨pre, mid ++ rest, post, first, second, _, session, hPre.begins, rfl, hProves⟩

/-- The acts of a tile that authorize a sign-in have the Broker behind them. -/
theorem backed_of_authorizes (hClock : Monotone E.clock) (hOnce : DrawsOnce E)
    (h₀ : b₀.sessions = []) {es : List Event} {sid : WString} {acts : List Act}
    (hAuthorizes : Authorizes sid acts) (h : Interleaved P E pipe b₀ before es acts) :
    Backed P E pipe b₀ before es sid := by
  cases hAuthorizes with
  | notEnforced challenge older hEnforced =>
      exact backed_of_notEnforced hParses hPrints hObjects hCaller hEnforced h
  | keyVerified challenge older hBegun =>
      exact backed_of_keyVerified hParses hPrints hObjects hCaller hClock hOnce h₀ hBegun h

/-- A tile that was authorized since its last reset, whatever the Broker did meanwhile. -/
theorem backed_of_authorizedBy (hClock : Monotone E.clock) (hOnce : DrawsOnce E)
    (h₀ : b₀.sessions = []) {t u : Tile} {cs pre post : List (Callback × Surroundings)}
    {S : Surroundings} {sid : WString} (hBy : AuthorizedBy P t cs u pre S post sid)
    {es : List Event} (h : Interleaved P E pipe b₀ before es u.acts) : Backed P E pipe b₀ before es sid := by
  obtain ⟨newer, hActs, -⟩ := hBy.noReset
  rw [hActs] at h
  obtain ⟨upTo, after, rfl, hUpTo⟩ := h.earlier
  rw [History.run_concat] at hUpTo
  exact (backed_of_authorizes hParses hPrints hObjects hCaller hClock hOnce h₀
    hBy.completes.authorizes hUpTo).later

end Backing

/-! ## Since an enforcement -/

/-- What may happen during the events `es` after the Broker was `b`, when an enforcement of
`s` was acknowledged. -/
structure StaysEnforced (P : Platform) (E : Environment) (b : Broker) (s : WString)
    (es : List Event) : Prop where
  /-- no request that ends it is answered with `ok` -/
  notEnded : ∀ pre e post, es = pre ++ e :: post → ∀ sid, isSameSid sid s = true →
    ¬ SetsEnforcement P E (run P E b pre) e sid false
  /-- the account is not deleted -/
  there : ∀ pre e post, es = pre ++ e :: post →
    ¬ Vanished P E (run P E b pre).machine.tick (step P E (run P E b pre) e).machine.tick s
  guarded : ∀ mid last post, es = mid ++ last :: post → Guarded P E b s mid last

theorem letThrough_congr {b : Broker} {e : Event} {s s' : WString} (hSame : isSameSid s s' = true)
    (h : LetThrough P E b e s) : LetThrough P E b e s' := by
  obtain ⟨pipe, input, caller, request, sid, hEvent, hOpen, hOp, hSid, hIs, hReply⟩ := h
  exact ⟨pipe, input, caller, request, sid, hEvent, hOpen, hOp, hSid, wcsicmpEq_trans hIs hSame, hReply⟩

/-- While an enforcement lasts, only an assertion is behind a sign-in. -/
theorem StaysEnforced.verified (hT : P.Transcodes) (hProtects : P.Protects)
    (hParses : P.ParsesDumps) (hStrict : P.StrictUtf8) (hTorn : TornRefused P E)
    (hDistinct : ∀ file v, VaultFile.Kept file → vaultIn P b₀.machine.disk file = some v →
      DistinctSids v.accounts)
    {es : List Event} {e : Event} (hBefore : ∀ e' ∈ es ++ [e], e'.Leaves P DistinctSids)
    {s : WString} (hSet : SetsEnforcement P E (run P E b₀ es) e s true) {tail : List Event}
    (hStays : StaysEnforced P E (run P E b₀ (es ++ [e])) s tail) {sid : WString}
    (hSame : isSameSid (transcoded P sid) s = true)
    (h : Backed P E pipe b₀ (es ++ [e]) (es ++ [e] ++ tail) sid) :
    Verified P E pipe b₀ (es ++ [e]) (es ++ [e] ++ tail) sid := by
  cases h with
  | verified hVerified => exact hVerified
  | @unenforced pre mid post message m hPre hEs hThrough hRegistry hPolicy =>
      obtain ⟨since, rfl⟩ := hPre
      -- a `begin_auth` since the enforcement does not let the account through
      obtain rfl : tail = since ++ .request pipe message :: (mid ++ post) := by
        simpa using hEs
      rw [run, History.run_append, ← run, ← run] at hThrough
      have hGuarded := hStays.guarded _ _ _ rfl
      have hTables := hSet.lasts hT hProtects hParses hStrict hTorn hDistinct hBefore rfl
        (fun first e' rest hSplit => ?_) hGuarded
      · exact absurd (letThrough_congr hSame hThrough)
          (hGuarded.not_letThrough hTables (hStays.there _ _ _ rfl))
      · have hTail : since ++ .request pipe message :: (mid ++ post) =
            first ++ e' :: (rest ++ (mid ++ post)) := by
          have hCut := congrArg (· ++ (mid ++ post)) hSplit
          simpa using hCut
        exact not_undoes_enforced (hStays.notEnded _ _ _ hTail) (hStays.there _ _ _ hTail)

/-- A known account is the identity that a tile packs. -/
theorem identity_of_known {db : LocalAccount.AccountDatabase}
    (hNames : LocalAccount.AccountNames db) {t u : Tile} {cs : List (Callback × Surroundings)}
    (h : Accounted P db t cs u) {account : LocalAccount.ResolvedAccount} (hKnown : Known db u account) :
    (cstr u.core.domain, cstr u.core.username) = (account.computerName, account.username) := by
  obtain ⟨name, hName⟩ := hKnown.resolved
  have hDomain := (LocalAccount.resolveCandidate_ok (LocalAccount.resolveLocalAccount_ok hName)).2.2
  rw [cstr_of_notMem h.name, hKnown.username, hKnown.domain, hDomain, cstr_of_notMem hNames.computer]

section Logons

variable (hParses : P.ParsesDumps) (hPrints : P.PrintsCompactly) (hObjects : P.ParsesObjects)
  {caller : Caller} (hCaller : getCaller pipe = .ok caller) (hClock : Monotone E.clock)
  (hOnce : DrawsOnce E) (h₀ : b₀.sessions = []) {db : LocalAccount.AccountDatabase}
  (hNames : LocalAccount.AccountNames db) {t : Tile} (hStart : Fresh t)
  {cs : List (Callback × Surroundings)} (hFixed : ∀ e ∈ cs, e.2.accounts = db)
include hParses hPrints hObjects hCaller hClock hOnce h₀ hNames hStart hFixed

/-- What `GetSerialization` emits is for a known account with the Broker behind it. -/
theorem backed_of_emitted {es : List Event}
    (h : Interleaved P E pipe b₀ before es (History.run (Tile.step P) t cs).acts)
    {S : Surroundings} {outputs : Bool} {blob : Serialization}
    (hEmit : ((History.run (Tile.step P) t cs).getSerialization S outputs).1.serialization =
      some blob) :
    ∃ name account, LocalAccount.resolveLocalAccount db name = .ok account ∧
      blob.identity = (account.computerName, account.username) ∧
      Backed P E pipe b₀ before es account.sidString := by
  have hRun := accounted_run P hNames hStart hFixed
  cases getSerialization_emits hEmit with
  | changePassword oldPassword newPassword hMode hAuthorized =>
      obtain ⟨account, hKnown, pre, S', post, hBy, -⟩ := hRun.changing hMode hAuthorized
      obtain ⟨name, hName⟩ := hKnown.resolved
      exact ⟨name, account, hName, identity_of_known hNames hRun hKnown,
        backed_of_authorizedBy hParses hPrints hObjects hCaller hClock hOnce h₀ hBy h⟩
  | logon message password hMode hMfa =>
      obtain ⟨account, hKnown, pre, S', post, hBy⟩ := hRun.complete hMfa
      obtain ⟨name, hName⟩ := hKnown.resolved
      exact ⟨name, account, hName, identity_of_known hNames hRun hKnown,
        backed_of_authorizedBy hParses hPrints hObjects hCaller hClock hOnce h₀ hBy h⟩

/-- Every blob that leaves a tile, whatever the tile was asked and whatever the Broker was
sent by others meanwhile, is for a local account behind whose sign-in the Broker stands. -/
theorem logon_backed {es : List Event}
    (h : Interleaved P E pipe b₀ before es (History.run (Tile.step P) t cs).acts)
    {S : Surroundings} {outputs : Bool} {blob : Serialization}
    (hEmit : ((History.run (Tile.step P) t cs).getSerialization S outputs).1.serialization =
      some blob) :
    ∃ name account, LocalAccount.resolveLocalAccount db name = .ok account ∧
      blob.identity = (account.computerName, account.username) ∧
      Backed P E pipe b₀ before es account.sidString :=
  backed_of_emitted hParses hPrints hObjects hCaller hClock hOnce h₀ hNames hStart hFixed h hEmit

/-- After an enforcement was acknowledged, no blob for the account leaves a tile that began
later, unless the Broker accepted an assertion for a challenge of the account since then. -/
theorem logon_needs_key (hT : P.Transcodes) (hProtects : P.Protects) (hStrict : P.StrictUtf8)
    (hTorn : TornRefused P E)
    (hDistinct : ∀ file v, VaultFile.Kept file → vaultIn P b₀.machine.disk file = some v →
      DistinctSids v.accounts)
    {es : List Event} {e : Event} (hBefore : ∀ e' ∈ es ++ [e], e'.Leaves P DistinctSids)
    {s : WString} (hSet : SetsEnforcement P E (run P E b₀ es) e s true) {tail : List Event}
    (hStays : StaysEnforced P E (run P E b₀ (es ++ [e])) s tail)
    (h : Interleaved P E pipe b₀ (es ++ [e]) (es ++ [e] ++ tail)
      (History.run (Tile.step P) t cs).acts)
    {S : Surroundings} {outputs : Bool} {blob : Serialization}
    (hEmit : ((History.run (Tile.step P) t cs).getSerialization S outputs).1.serialization =
      some blob) :
    ∃ name account, LocalAccount.resolveLocalAccount db name = .ok account ∧
      blob.identity = (account.computerName, account.username) ∧
      (isSameSid (transcoded P account.sidString) s = true →
        Verified P E pipe b₀ (es ++ [e]) (es ++ [e] ++ tail) account.sidString) := by
  obtain ⟨name, account, hName, hIdentity, hBacked⟩ :=
    backed_of_emitted hParses hPrints hObjects hCaller hClock hOnce h₀ hNames hStart hFixed h hEmit
  exact ⟨name, account, hName, hIdentity, fun hSame =>
    hStays.verified hT hProtects hParses hStrict hTorn hDistinct hBefore hSet hSame hBacked⟩

end Logons

section Example

open Reference hiding calm

deriving instance DecidableEq for Act

def givenChallenge : AuthenticationChallenge where
  enforced := true
  sessionId := text "GxsbGxsbGxsbGxsbGxsbGxsbGxsbGxsb"
  rpId := rpIdOf (List.replicate 32 48)
  origin := text "https://" ++ rpIdOf (List.replicate 32 48)
  request :=
    { allowCredentials := [{ id := text "AAECAwQFBgcICQoLDA0ODw", transports := [text "usb"] }]
      challenge := text "BwcHBwcHBwcHBwcHBwcHBwcHBwcHBwcHBwcHBwcHBwc"
      rpId := rpIdOf (List.replicate 32 48)
      userVerification := text "required"
      type := text "webauthn"
      timeout := 120000 }

def signedData : FIDOSignResponse where
  clientdata := text clientDataText
  assertions :=
    [{ credentialid := text "AAECAwQFBgcICQoLDA0ODw"
       authenticatordata := text authDataText
       signaturedata := text signatureText
       userHandle := [] }]

/-- The two calls of the tile. -/
def asks : BrokerClient.Call := .beginAuthentication aliceSid

def signs : BrokerClient.Call := .finishAuthentication givenChallenge.sessionId signedData

def signedText : Bytes := (envelope (signs.request keyPlatform)).render

/-- `alice` enters her name and her password and touches her key. -/
def touches : List (Callback × Surroundings) :=
  enters.take 2 ++ [(.connect, { calm (some givenChallenge) with
    devices := [{ path := text "key" }]
    sign := fun _ _ _ _ => (FIDO_OK, signedData) })]

def signIn : List Event := [.request alicePipe sentText, .request alicePipe signedText]

theorem ran_touches :
    (History.run (Tile.step keyPlatform) anonymous touches).acts =
        [.finished givenChallenge.sessionId true, .begun aliceSid (some givenChallenge),
          .resolved (wtext "alice") (LocalAccount.resolveLocalAccount accountDatabase (wtext "alice")),
          .reset] ∧
      ((History.run (Tile.step keyPlatform) anonymous touches).getSerialization
        (calm none) true).1.serialization =
          some (.logon .interactiveLogon (wtext "PC") (wtext "alice") (wtext "secret")) := by
  decide +kernel

/-- The account is enforced, then the tile is served. -/
theorem served_signIn :
    (serve keyPlatform unrepeated adminPipe enableText oneKey).1.map Prod.snd = some true ∧
      ((serve keyPlatform unrepeated alicePipe sentText
        (run keyPlatform unrepeated oneKey ([] ++ [enable]))).1.map fun reply =>
          asks.receive keyPlatform (pipeResponse reply.1)) =
        some (.returned (.challenge givenChallenge)) ∧
      ((serve keyPlatform unrepeated alicePipe signedText
        (run keyPlatform unrepeated oneKey ([] ++ [enable] ++ [.request alicePipe sentText]))).1.map
          fun reply => signs.receive keyPlatform (pipeResponse reply.1)) = some (.returned .done) ∧
      (entriesSince (run keyPlatform unrepeated oneKey ([] ++ [enable])).machine
        (run keyPlatform unrepeated (run keyPlatform unrepeated oneKey ([] ++ [enable]))
          signIn).machine).all (LogEntry.enforces aliceSid) = true := by
  decide +kernel

theorem sent_signIn : callMessage keyPlatform (asks.request keyPlatform) = .ok sentText ∧
    callMessage keyPlatform (signs.request keyPlatform) = .ok signedText := by
  decide +kernel

theorem interleaved_signIn : Interleaved keyPlatform unrepeated alicePipe oneKey ([] ++ [enable])
    ([] ++ [enable] ++ signIn) (History.run (Tile.step keyPlatform) anonymous touches).acts := by
  obtain ⟨-, hAsked, hSigned, -⟩ := served_signIn
  obtain ⟨⟨output, ok⟩, hServed, hEnds⟩ := Option.map_eq_some_iff.mp hAsked
  obtain ⟨⟨output', ok'⟩, hServed', hEnds'⟩ := Option.map_eq_some_iff.mp hSigned
  have hBegun : Answers keyPlatform unrepeated alicePipe oneKey ([] ++ [enable]) asks sentText
      (.returned (.challenge givenChallenge)) := ⟨sent_signIn.1, output, ok, hServed, hEnds⟩
  have hFinished : Answers keyPlatform unrepeated alicePipe oneKey
      ([] ++ [enable] ++ [.request alicePipe sentText]) signs signedText (.returned .done) :=
    ⟨sent_signIn.2, output', ok', hServed', hEnds'⟩
  have hStart : Interleaved keyPlatform unrepeated alicePipe oneKey ([] ++ [enable]) ([] ++ [enable])
      [.resolved (wtext "alice") (LocalAccount.resolveLocalAccount accountDatabase (wtext "alice")),
        .reset] :=
    .act (.own trivial) (.act (.own trivial) .start)
  rw [ran_touches.1]
  exact .act (.finished hFinished) (.act (.begun hBegun) hStart)

theorem accounts_touches : ∀ e ∈ touches, e.2.accounts = accountDatabase := by
  intro e he
  simp only [touches, enters, List.take, List.cons_append, List.nil_append, List.mem_cons,
    List.not_mem_nil, or_false] at he
  rcases he with rfl | rfl | rfl <;> rfl

theorem logon_backed_example :
    ∃ name account, LocalAccount.resolveLocalAccount accountDatabase name = .ok account ∧
      (wtext "PC", wtext "alice") = (account.computerName, account.username) ∧
      Backed keyPlatform unrepeated alicePipe oneKey ([] ++ [enable]) ([] ++ [enable] ++ signIn)
        account.sidString := by
  have hCaller : getCaller alicePipe = .ok aliceCaller := rfl
  exact logon_backed (parsesDumps _) (printsCompactly _) (parsesObjects _) hCaller
    (fun _ _ _ => le_refl _) drawsOnce_unrepeated rfl accountNames_reference fresh_anonymous
    accounts_touches interleaved_signIn ran_touches.2

theorem sets_oneKey :
    SetsEnforcement keyPlatform unrepeated (run keyPlatform unrepeated oneKey []) enable aliceSid true := by
  obtain ⟨⟨output, ok⟩, hReply, hTrue⟩ := Option.map_eq_some_iff.mp served_signIn.1
  obtain rfl : ok = true := hTrue
  obtain ⟨hParses, hVersion, hOp, hSid, hEnabled, hNonempty, hFits⟩ := enableText_fields
  have hOpen : openRequest keyPlatform adminPipe enableText =
      .ok ({ sid := aliceSid, isElevatedAdmin := true }, parsed enableText) :=
    openRequest_eq hNonempty hFits (parse_eq_parsed hParses) hVersion rfl
  generalize parsed enableText = request at hOp hSid hEnabled hOpen
  have hAnswered : AnsweredOk keyPlatform unrepeated oneKey enable
      { sid := aliceSid, isElevatedAdmin := true } request :=
    ⟨adminPipe, enableText, output, rfl, hOpen, hReply⟩
  exact ⟨_, request, hAnswered, hOp, hSid, hEnabled⟩

theorem distinct_oneKey (file : VaultFile) (v : Vault) (hKept : VaultFile.Kept file)
    (hVault : vaultIn keyPlatform oneKey.machine.disk file = some v) : DistinctSids v.accounts := by
  have hBoth : ((vaultIn keyPlatform oneKey.machine.disk .primary).all fun v =>
      decide ((v.accounts.map sidKey).Nodup)) = true ∧
        vaultIn keyPlatform oneKey.machine.disk .backup = none := by
    decide +kernel
  rcases hKept with rfl | rfl
  · have hPrimary := hBoth.1
    rw [hVault] at hPrimary
    have hNodup : (v.accounts.map sidKey).Nodup := of_decide_eq_true hPrimary
    exact hNodup
  · cases hVault.symm.trans hBoth.2

/-- A call sets nothing if it is not `SetEnforcement`. -/
theorem not_sets_of_call {call : BrokerClient.Call} {message : Bytes}
    (hSent : callMessage keyPlatform (call.request keyPlatform) = .ok message)
    (hOther : (call.transcoded keyPlatform).operation ≠ text "set_enforcement") {b : Broker}
    {sid : WString} {enabled : Bool} :
    ¬ SetsEnforcement keyPlatform unrepeated b (.request alicePipe message) sid enabled := by
  rintro ⟨caller, request, ⟨pipe, input, output, hEvent, hOpen, -⟩, hOp, -⟩
  cases hEvent
  have hCaller : getCaller alicePipe = .ok aliceCaller := rfl
  rw [openRequest_callMessage (P := keyPlatform) (parsesDumps _) (printsCompactly _) hSent hCaller]
    at hOpen
  cases hOpen
  exact hOther (Except.ok.inj ((reads_envelope call).operation.symm.trans hOp))

theorem staysEnforced_signIn :
    StaysEnforced keyPlatform unrepeated (run keyPlatform unrepeated oneKey ([] ++ [enable])) aliceSid
      signIn := by
  obtain ⟨-, -, -, hAll⟩ := served_signIn
  rw [List.all_eq_true] at hAll
  generalize run keyPlatform unrepeated oneKey ([] ++ [enable]) = b at hAll
  refine ⟨fun pre e post hSplit sid _ => ?_, fun _ _ _ _ => not_vanished_alice fun _ => rfl,
    fun mid last post hSplit => ?_⟩
  · have hMem : e ∈ signIn := by simp [hSplit]
    simp only [signIn, List.mem_cons, List.not_mem_nil, or_false] at hMem
    rcases hMem with rfl | rfl
    · exact not_sets_of_call sent_signIn.1 (by decide)
    · exact not_sets_of_call sent_signIn.2 (by decide)
  · -- what is read in a part of the events is read in all of them
    have hPart : ∀ entry, entry ∈ entriesSince b.machine
        (run keyPlatform unrepeated b (mid ++ [last])).machine →
          LogEntry.enforces aliceSid entry = true := by
      intro entry hMem
      refine hAll entry (mem_entriesSince_of_later (run_later b _).log_suffix ?_ hMem)
      have hParts : mid ++ last :: post = mid ++ [last] ++ post := by simp
      rw [hSplit, hParts]
      exact run_later_append b _ post
    exact
      { left := fun e hMem content v hTamper => by
          have hThere : e ∈ signIn := by
            rw [hSplit]
            simp at hMem ⊢
            tauto
          subst hTamper
          simp [signIn] at hThere
        back := fun v hMem => hPart _ hMem
        created := fun hMem => absurd (hPart _ hMem) (by decide)
        written := fun _ _ _ _ => .inl fun _ => rfl
        listed := fun hMem => absurd (hPart _ (mem_entriesSince_of_suffix
          (run_later b mid).log_suffix (run_later_append b mid [last]) hMem)) (by decide) }

/-- `alice` signs in with her key after she has enforced it. -/
theorem logon_needs_key_example :
    ∃ name account, LocalAccount.resolveLocalAccount accountDatabase name = .ok account ∧
      (wtext "PC", wtext "alice") = (account.computerName, account.username) ∧
      (isSameSid (transcoded keyPlatform account.sidString) aliceSid = true →
        Verified keyPlatform unrepeated alicePipe oneKey ([] ++ [enable]) ([] ++ [enable] ++ signIn)
          account.sidString) := by
  have hCaller : getCaller alicePipe = .ok aliceCaller := rfl
  have hBefore : ∀ e ∈ [] ++ [enable], e.Leaves keyPlatform DistinctSids := by
    rintro e he content v rfl
    simp [enable] at he
  exact logon_needs_key (parsesDumps _) (printsCompactly _) (parsesObjects _) hCaller
    (fun _ _ _ => le_refl _) drawsOnce_unrepeated rfl accountNames_reference fresh_anonymous
    accounts_touches (transcodes _) (protects _) (strictUtf8 _)
    (tornRefused_of_writesSucceed fun _ => rfl) distinct_oneKey hBefore sets_oneKey
    staysEnforced_signIn interleaved_signIn ran_touches.2

end Example

end SignIn
end WindowsFidoLogon
