import WindowsFidoLogon.Broker.Handling
import WindowsFidoLogon.Broker.Totality
import WindowsFidoLogon.Library.History

/-!
# Runs of the Broker

`Run` refreshes the store and serves one client after the other.  An exception that
leaves `ProcessRequest` ends the process, and so does a step at which the machine stops;
the session table is lost then, the store is not.

`session_origin` is the history of a session: one request opened it, and none since
has taken it.
-/

namespace WindowsFidoLogon
namespace BrokerService

open Program Text LocalAccount LocalCredentialStore Environment Handling

/-- What can happen to the Broker and its store. -/
inductive Event
  | request (pipe : PipeClient) (input : Bytes)
  /-- the process ends, and another one enters `Run` -/
  | restart
  /-- the primary vault file is removed or overwritten from outside -/
  | tamper (content : Option Bytes)

variable (P : Platform) (E : Environment)

/-- One round of `Run`: the reply, if there is one, and the Broker that takes the next
request. -/
def serve (pipe : PipeClient) (input : Bytes) (b : Broker) : Option (Bytes × Bool) × Broker :=
  match processRequest P E pipe input b with
  | (.returned reply, b') => (some reply, b')
  | (.threw _, b') => (none, b'.setSessions [])
  | (.stopped, b') => (none, b'.setSessions [])

def step (b : Broker) : Event → Broker
  | .request pipe input => (serve P E pipe input b).2
  | .restart => (b.setMachine (refreshLocalAccounts P E b.machine).2).setSessions []
  | .tamper content => b.setMachine (b.machine.setFile .primary content)

/-- The Broker after a sequence of events. -/
abbrev run (b : Broker) (es : List Event) : Broker :=
  History.run (step P E) b es

variable {P E}

theorem run_concat (b : Broker) (es : List Event) (e : Event) :
    run P E b (es ++ [e]) = step P E (run P E b es) e :=
  History.run_concat b es e

/-! ## One request -/

theorem openRequest_eq {pipe : PipeClient} {input : Bytes} {caller : Caller} {request : Json}
    (hNonempty : input.isEmpty = false) (hLength : input.length ≤ kMaxBrokerMessageBytes)
    (hParse : P.parse input = .ok request)
    (hVersion : request.valueOr Json.getUnsigned (text "version") 0 = .ok kBrokerProtocolVersion)
    (hCaller : getCaller pipe = .ok caller) : openRequest P pipe input = .ok (caller, request) := by
  unfold openRequest
  rw [if_neg (by simp [hNonempty, hLength]), hParse]
  refine except_bind_eq_ok.mpr ⟨request, rfl, except_bind_eq_ok.mpr ⟨_, hVersion, ?_⟩⟩
  rw [if_neg (by simp), hCaller]
  rfl

/-- A request that is refused before `Handle` changes nothing in the store. -/
theorem serve_refused {pipe : PipeClient} {input what : Bytes} {b : Broker}
    (hOpen : openRequest P pipe input = .error what) :
    (serve P E pipe input b).2.machine = b.machine ∧
      (serve P E pipe input b).2.sessions ⊆ b.sessions := by
  have hAnswer : answer P E pipe input b = (.threw what, b) := by
    unfold answer
    rw [hOpen]
    rfl
  unfold serve
  rw [processRequest_apply, hAnswer]
  dsimp only
  cases printed P (errorReply what) with
  | returned reply => exact ⟨rfl, List.Subset.refl _⟩
  | threw e => exact ⟨rfl, List.nil_subset _⟩
  | stopped => exact ⟨rfl, List.nil_subset _⟩

theorem answer_of_openRequest {pipe : PipeClient} {input : Bytes} {caller : Caller}
    {request : Json} {b : Broker} (hOpen : openRequest P pipe input = .ok (caller, request)) :
    answer P E pipe input b = handle P E caller request b := by
  unfold answer
  rw [hOpen]
  rfl

/-- A request that reaches `Handle` leaves the store as `Handle` does, and the session
table too unless the process ends. -/
theorem serve_handled {pipe : PipeClient} {input : Bytes} {caller : Caller} {request : Json}
    {b b' : Broker} {o : Outcome Bytes Json}
    (hOpen : openRequest P pipe input = .ok (caller, request))
    (hHandle : handle P E caller request b = (o, b')) :
    (serve P E pipe input b).2.machine = b'.machine ∧
      ((serve P E pipe input b).2.sessions = [] ∨ (serve P E pipe input b).2.sessions = b'.sessions ∧
        ∀ j, o = .returned j → ∃ output ok, (serve P E pipe input b).1 = some (output, ok) ∧
          printed P j = .returned (output, ok)) := by
  unfold serve
  rw [processRequest_apply, answer_of_openRequest hOpen, hHandle]
  cases o with
  | returned j =>
      dsimp only
      cases hPrinted : printed P j with
      | returned reply => exact ⟨rfl, .inr ⟨rfl, fun j' hj' => by cases hj'; exact ⟨_, _, rfl, hPrinted⟩⟩⟩
      | threw e => exact ⟨rfl, .inl rfl⟩
      | stopped => exact ⟨rfl, .inl rfl⟩
  | threw what =>
      dsimp only
      cases printed P (errorReply what) with
      | returned reply => exact ⟨rfl, .inr ⟨rfl, fun j hj => by cases hj⟩⟩
      | threw e => exact ⟨rfl, .inl rfl⟩
      | stopped => exact ⟨rfl, .inl rfl⟩
  | stopped => exact ⟨rfl, .inl rfl⟩

theorem step_machine {pipe : PipeClient} {input : Bytes} {caller : Caller} {request : Json}
    {b : Broker} (hOpen : openRequest P pipe input = .ok (caller, request)) :
    (step P E b (.request pipe input)).machine = (handle P E caller request b).2.machine :=
  (serve_handled hOpen (Prod.ext rfl rfl)).1

theorem printed_eq_returned {j : Json} {output : Bytes} {ok : Bool} :
    printed P j = .returned (output, ok) ↔
      P.dump j = .ok output ∧ j.valueOr Json.getBool (text "ok") false = .ok ok := by
  unfold printed
  cases P.dump j with
  | error e => simp
  | ok output' => cases j.valueOr Json.getBool (text "ok") false <;> simp

theorem printed_errorReply {what output : Bytes} {ok : Bool}
    (h : printed P (errorReply what) = .returned (output, ok)) : ok = false :=
  (Except.ok.inj (printed_eq_returned.mp h).2).symm

/-- What the client gets is the reply of `Handle` in print. -/
theorem printed_of_served {pipe : PipeClient} {input output : Bytes} {caller : Caller}
    {request j : Json} {b b' : Broker} {ok : Bool}
    (hOpen : openRequest P pipe input = .ok (caller, request))
    (hHandle : handle P E caller request b = (.returned j, b'))
    (hServed : (serve P E pipe input b).1 = some (output, ok)) :
    printed P j = .returned (output, ok) := by
  unfold serve at hServed
  rw [processRequest_apply, answer_of_openRequest hOpen, hHandle] at hServed
  dsimp only at hServed
  cases hPrinted : printed P j with
  | returned reply =>
      rw [hPrinted] at hServed
      exact congrArg Outcome.returned (Option.some.inj hServed)
  | threw e =>
      rw [hPrinted] at hServed
      cases hServed
  | stopped =>
      rw [hPrinted] at hServed
      cases hServed

/-- A request answered with `ok` is one that `Handle` replied to. -/
theorem handle_of_serve_ok {pipe : PipeClient} {input output : Bytes} {caller : Caller}
    {request : Json} {b : Broker} (hOpen : openRequest P pipe input = .ok (caller, request))
    (hOk : (serve P E pipe input b).1 = some (output, true)) :
    ∃ j b', handle P E caller request b = (.returned j, b') ∧
      printed P j = .returned (output, true) ∧ (serve P E pipe input b).2 = b' := by
  unfold serve at hOk ⊢
  rw [processRequest_apply, answer_of_openRequest hOpen] at hOk ⊢
  rcases hHandle : handle P E caller request b with ⟨j | what | _, b'⟩ <;> rw [hHandle] at hOk
  · dsimp only at hOk ⊢
    cases hPrinted : printed P j with
    | returned reply =>
        rw [hPrinted] at hOk
        cases hOk
        exact ⟨j, b', rfl, hPrinted, rfl⟩
    | threw e =>
        rw [hPrinted] at hOk
        cases hOk
    | stopped =>
        rw [hPrinted] at hOk
        cases hOk
  · dsimp only at hOk
    cases hPrinted : printed P (errorReply what) with
    | returned reply =>
        rw [hPrinted] at hOk
        cases hOk
        cases printed_errorReply hPrinted
    | threw e =>
        rw [hPrinted] at hOk
        cases hOk
    | stopped =>
        rw [hPrinted] at hOk
        cases hOk
  · cases hOk

theorem serve_machine_later (pipe : PipeClient) (input : Bytes) (b : Broker) :
    Later b.machine (serve P E pipe input b).2.machine := by
  cases hOpen : openRequest P pipe input with
  | error what =>
      rw [(serve_refused hOpen).1]
      exact Std.Refl.refl _
  | ok opened =>
      obtain ⟨caller, request⟩ := opened
      have hConducts : Conducted P E ⟨b, caller, request⟩ _ _ :=
        handle_conducts (P := P) (E := E) ⟨b, caller, request⟩
      rw [(serve_handled hOpen (Prod.ext rfl rfl)).1]
      exact hConducts.transacts transacts_later

/-! ## The history of a session -/

/-- The event opened the session: it was a request that went through the checks of
its operation, and the client got its reply. -/
def OpenedBy (P : Platform) (E : Environment) (b : Broker) (e : Event) (id : Bytes)
    (session : Session) : Prop :=
  ∃ pipe input caller request o b', e = .request pipe input ∧
    openRequest P pipe input = .ok (caller, request) ∧
    handle P E caller request b = (o, b') ∧
    (serve P E pipe input b).2.machine = b'.machine ∧
    Opened P E ⟨b, caller, request⟩ o b'.machine id session ∧
    ∀ j, o = .returned j → ∃ output ok, (serve P E pipe input b).1 = some (output, ok) ∧
      printed P j = .returned (output, ok)

/-- The event is a request that finishes the session `id`, and gets as far as taking
it: the store could be refreshed and loaded. -/
def Takes (P : Platform) (E : Environment) (b : Broker) (e : Event) (id : Bytes) : Prop :=
  ∃ pipe input caller request op m n v, e = .request pipe input ∧
    openRequest P pipe input = .ok (caller, request) ∧
    request.valueOr Json.getString (text "op") [] = .ok op ∧
    (op = text "finish_auth" ∨ op = text "commit_registration" ∨ op = text "finish_remove") ∧
    stringField request (text "sessionId") = .ok id ∧
    refreshLocalAccounts P E b.machine = (.returned (.ok ()), m) ∧
    loadOrCreate P E m = (.returned (.ok v), n)

/-- A session in the table after an event was there before, or the event opened it. -/
theorem openedBy_of_mem_step {b : Broker} {e : Event} {id : Bytes} {session : Session}
    (hAfter : (id, session) ∈ (step P E b e).sessions) (hBefore : (id, session) ∉ b.sessions) :
    OpenedBy P E b e id session := by
  cases e with
  | restart => cases hAfter
  | tamper content => exact absurd hAfter hBefore
  | request pipe input =>
      cases hOpen : openRequest P pipe input with
      | error what => exact absurd ((serve_refused hOpen).2 hAfter) hBefore
      | ok opened =>
          obtain ⟨caller, request⟩ := opened
          rcases hHandle : handle P E caller request b with ⟨o, b'⟩
          obtain ⟨hMachine, hSessions⟩ := serve_handled hOpen hHandle
          have hConducted : Conducted P E ⟨b, caller, request⟩ o b' :=
            (handle_conducts ⟨b, caller, request⟩).of_eq hHandle
          -- the process has ended, or the table is as `Handle` left it
          rcases hSessions with hNone | ⟨hSame, hReply⟩
          · have hAfter' : (id, session) ∈ (serve P E pipe input b).2.sessions := hAfter
            rw [hNone] at hAfter'
            cases hAfter'
          · have hAfter' : (id, session) ∈ (serve P E pipe input b).2.sessions := hAfter
            rw [hSame] at hAfter'
            rcases hConducted.sessions _ hAfter' with hOld | hOpened
            · exact absurd hOld hBefore
            · exact ⟨pipe, input, caller, request, o, b', rfl, hOpen, hHandle, hMachine, hOpened, hReply⟩

/-- No entry of the session table has this identifier. -/
def Unused (id : Bytes) (b : Broker) : Prop :=
  ∀ e ∈ b.sessions, e.1 ≠ id

theorem keeps_unused_onMachine {α : Type} (id : Bytes) (x : Call α) :
    Keeps (Unused id) (onMachine x) :=
  fun _ hb => hb

/-- Taking a session frees its identifier, whatever the checks come to. -/
theorem unused_enterSession {request : Json} {caller : Caller} {kind : SessionKind} {id : Bytes}
    (hId : stringField request (text "sessionId") = .ok id) (hLength : id.length = 32)
    (b : Broker) : Meets (enterSession E request caller kind) b fun _ b' => Unused id b' := by
  unfold enterSession takeSession
  rw [hId, ofExcept_ok, pure_bind, if_neg (by simpa using hLength), meets_bind, meets_bind,
    meets_gets]
  dsimp only
  cases hFound : findSession id b.sessions with
  | none =>
      intro e he hSame
      -- an entry with this identifier would have been found
      have hSome : (b.sessions.find? fun entry => entry.1 == id).isSome = true :=
        List.find?_isSome.mpr ⟨e, he, by simpa using hSame⟩
      unfold findSession at hFound
      rw [Option.map_eq_none_iff] at hFound
      rw [hFound] at hSome
      cases hSome
  | some session =>
      dsimp only
      rw [meets_bind, meets_update]
      have hErased : Unused id (b.setSessions (eraseSession id b.sessions)) := by
        intro e he
        simpa using (List.mem_filter.mp he).2
      dsimp only
      rw [meets_bind, meets_onMachine, meets_ask]
      dsimp only
      rw [meets_pure]
      dsimp only
      exact Keeps.ofExcept _ _ hErased

theorem onMachine_returned {α : Type} {x : Call α} {b : Broker} {a : α} {m : Machine}
    (hx : x b.machine = (.returned a, m)) : onMachine x b = (.returned a, b.setMachine m) := by
  unfold onMachine
  rw [zoom_apply, hx]

/-- A finishing operation that got as far as taking the session `id` leaves no session
with this identifier. -/
theorem unused_of_enterSession {request : Json} {caller : Caller} {kind : SessionKind}
    {id : Bytes} (hId : stringField request (text "sessionId") = .ok id) (hLength : id.length = 32)
    {f : Session → BrokerCall Json} (hf : ∀ session, Keeps (Unused id) (f session)) (b : Broker) :
    Meets (enterSession E request caller kind >>= f) b fun _ b' => Unused id b' := by
  rw [meets_bind]
  refine (unused_enterSession hId hLength b).mono ?_
  rintro (session | what | _) b' hUnused
  · exact hf session b' hUnused
  · exact hUnused
  · exact hUnused

/-- After a request that took the session `id`, no session has this identifier. -/
theorem unused_of_takes {b : Broker} {e : Event} {id : Bytes} (hTakes : Takes P E b e id)
    (hLength : id.length = 32) : Unused id (step P E b e) := by
  obtain ⟨pipe, input, caller, request, op, m, n, v, rfl, hOpen, hOp, hFinishing, hId, hRefresh,
    hLoad⟩ := hTakes
  have hHandle : Meets (handle P E caller request) b fun _ b' => Unused id b' := by
    unfold handle
    rw [meets_bind_returned (onMachine_returned hRefresh), hOp, ofExcept_ok, pure_bind]
    unfold dispatch
    -- nothing that the three operations do later puts a session
    rcases hFinishing with rfl | rfl | rfl
    · rw [if_neg (by decide), meets_bind_returned (onMachine_returned hLoad)]
      refine unused_of_enterSession hId hLength (fun session => ?_) _
      refine .bind (.ofExcept _) fun value => .bind (keeps_unused_onMachine _ _) fun r => ?_
      exact .bind (.ofExcept _) fun _ => .pure _
    · rw [if_neg (by decide), meets_bind_returned (onMachine_returned hLoad)]
      refine unused_of_enterSession hId hLength (fun session => ?_) _
      refine .bind (.ofExcept _) fun attestation => .bind (.ofExcept _) fun clientData => ?_
      refine .bind (.ofExcept _) fun registration => .bind (keeps_unused_onMachine _ _) fun _ => ?_
      exact .pure _
    · rw [if_neg (by decide), meets_bind_returned (onMachine_returned hLoad)]
      refine unused_of_enterSession hId hLength (fun session => ?_) _
      refine .bind (.ofExcept _) fun value => .bind (keeps_unused_onMachine _ _) fun r => ?_
      refine .bind (.ofExcept _) fun _ => .bind (keeps_unused_onMachine _ _) fun r => ?_
      cases r with
      | ok _ => exact .pure _
      | error e => exact .raise _
  unfold Meets at hHandle
  obtain ⟨_, hSessions⟩ := serve_handled (P := P) (E := E) (b := b) hOpen (Prod.ext rfl rfl)
  intro e he
  have he' : e ∈ (serve P E pipe input b).2.sessions := he
  rcases hSessions with hNone | ⟨hSame, _⟩
  · rw [hNone] at he'
    cases he'
  · rw [hSame] at he'
    exact hHandle e he'

/-- Every session in the table was opened by one request, and no request since then
has taken it. -/
theorem session_origin {b₀ : Broker} (h₀ : b₀.sessions = []) {es : List Event} {id : Bytes}
    {session : Session} (hMem : (id, session) ∈ (run P E b₀ es).sessions)
    (hLength : id.length = 32) :
    ∃ pre e post, es = pre ++ e :: post ∧ OpenedBy P E (run P E b₀ pre) e id session ∧
      ∀ mid e' rest, post = mid ++ e' :: rest →
        ¬ Takes P E (run P E b₀ (pre ++ e :: mid)) e' id := by
  have hStart : ¬ (id, session) ∈ b₀.sessions := by
    rw [h₀]
    exact List.not_mem_nil
  obtain ⟨pre, e, post, rfl, hBefore, hSince⟩ :=
    History.exists_origin (P := fun b : Broker => (id, session) ∈ b.sessions) hStart hMem
  refine ⟨pre, e, post, rfl, openedBy_of_mem_step ?_ hBefore, ?_⟩
  · have hFirst := hSince [] post rfl
    rwa [History.run_concat] at hFirst
  · rintro mid e' rest rfl hTakes
    have hStill : (id, session) ∈ (run P E b₀ (pre ++ e :: (mid ++ [e']))).sessions :=
      hSince (mid ++ [e']) rest (by simp)
    rw [← List.cons_append, ← List.append_assoc, run, History.run_concat] at hStill
    exact unused_of_takes hTakes hLength _ hStill rfl

/-- What `TakeSession` checked. -/
theorem checkSession_ok {session taken : Session} {caller : Caller} {kind : SessionKind} {now : Nat}
    (h : checkSession session caller kind now = .ok taken) :
    now < session.expiresAt ∧ session.kind = kind ∧
      (caller.isSystem = true ∨ isSameSid caller.sid session.callerSid = true) := by
  unfold checkSession at h
  split_ifs at h with hExpired hKind hCaller
  refine ⟨Nat.not_le.mp hExpired, not_not.mp hKind, ?_⟩
  by_cases hSystem : caller.isSystem = true
  · exact .inl hSystem
  · exact .inr (by simpa [hSystem] using hCaller)

theorem openedBy_deadline {b : Broker} {e : Event} {id : Bytes} {session : Session}
    (h : OpenedBy P E b e id session) :
    ∃ t, (b.machine.tick ≤ t ∧ t < (step P E b e).machine.tick) ∧
      session.expiresAt = E.clock t + kSessionLifetime := by
  obtain ⟨pipe, input, caller, request, o, b', rfl, _, _, hMachine, hOpened, _⟩ := h
  obtain ⟨t, hDuring, hExpires⟩ := hOpened.expiresAt
  refine ⟨t, ⟨hDuring.1, ?_⟩, hExpires⟩
  show t < (serve P E pipe input b).2.machine.tick
  rw [hMachine]
  exact hDuring.2

/-- The clock was read at `t`, while the event `e` opened a session after the run `pre`,
and at `t'`, when the request that now takes it was handled; less than 120 seconds lie
between. -/
structure InTime (P : Platform) (E : Environment) (b₀ : Broker) (pre : List Event) (e : Event)
    (H : Handling) (m : Machine) (t t' : Nat) : Prop where
  opened : (run P E b₀ pre).machine.tick ≤ t ∧ t < (run P E b₀ (pre ++ [e])).machine.tick
  taken : H.During t' m
  inTime : E.clock t' < E.clock t + kSessionLifetime

/-- A session that a request took was opened by one event of the run, in time, and was
taken by none since. -/
theorem entered_origin {b₀ : Broker} (h₀ : b₀.sessions = []) {es : List Event} {caller : Caller}
    {request : Json} {kind : SessionKind} {session : Session} {m : Machine}
    (hEntered : Entered E ⟨run P E b₀ es, caller, request⟩ kind session m) :
    ∃ id pre e post t t', stringField request (text "sessionId") = .ok id ∧
      es = pre ++ e :: post ∧ OpenedBy P E (run P E b₀ pre) e id session ∧
      InTime P E b₀ pre e ⟨run P E b₀ es, caller, request⟩ m t t' ∧
      (∀ mid e' rest, post = mid ++ e' :: rest →
        ¬ Takes P E (run P E b₀ (pre ++ e :: mid)) e' id) ∧
      session.kind = kind ∧
      (caller.isSystem = true ∨ isSameSid caller.sid session.callerSid = true) := by
  obtain ⟨id, t', hId, hLength, hFound, hDuring, hCheck⟩ := hEntered
  obtain ⟨hAlive, hKind, hCaller⟩ := checkSession_ok hCheck
  obtain ⟨entry, hEntry, rfl⟩ := Option.map_eq_some_iff.mp hFound
  have hMem : (id, entry.2) ∈ (run P E b₀ es).sessions := by
    have hSame : entry.1 = id := by simpa using List.find?_some hEntry
    rw [← hSame]
    exact List.mem_of_find?_eq_some hEntry
  obtain ⟨pre, e, post, hSplit, hOpened, hNotTaken⟩ := session_origin h₀ hMem hLength
  obtain ⟨t, hRead, hExpires⟩ := openedBy_deadline hOpened
  refine ⟨id, pre, e, post, t, t', hId, hSplit, hOpened, ⟨?_, hDuring, ?_⟩, hNotTaken, hKind, hCaller⟩
  · rwa [run_concat]
  · rwa [← hExpires]

end BrokerService
end WindowsFidoLogon
