import WindowsFidoLogon.Broker.Wire
import WindowsFidoLogon.System.Pipe

/-!
# What comes out of the pipe

Results about whole runs of the pipe, in any order of the steps of `Run`, of the calls and
of other programs.

* `call_served_once` — a message is handled at most once, and a reply is the answer to the
  message of the call that returns it;
* `reply_kept` — what the acknowledgement is for;
* `stuck_until_ended` — a client that is gone before `Run` first listens blocks the pipe.
-/

namespace WindowsFidoLogon
namespace BrokerPipe

open Text BrokerService

variable {P : Platform} {E : Environment} {clients : Nat → Client} {b₀ : Broker}

/-! ## Replies -/

theorem Step.history {s s' : World} (h : Step P E clients s s') :
    ∃ tail, s'.history = s.history ++ tail := by
  cases h with
  | server h =>
      cases h with
      | answers _ _ _ | dies _ _ _ => exact ⟨_, rfl⟩
      | _ => exact ⟨[], (List.append_nil _).symm⟩
  | call i h => cases h <;> exact ⟨[], (List.append_nil _).symm⟩
  | other h =>
      cases h with
      | starts _ _ | startFails _ | tampers _ => exact ⟨_, rfl⟩
      | killed | opens _ _ | uses _ _ _ _ _ => exact ⟨[], (List.append_nil _).symm⟩

theorem history_of_steps {s s' : World} (h : Steps P E clients s s') :
    ∃ tail, s'.history = s.history ++ tail := by
  induction h with
  | refl => exact ⟨[], (List.append_nil _).symm⟩
  | tail _ hStep ih =>
      obtain ⟨tail, hTail⟩ := ih
      obtain ⟨more, hMore⟩ := hStep.history
      exact ⟨tail ++ more, by rw [hMore, hTail, List.append_assoc]⟩

/-- A call that had not begun in `s` and has its reply in `s'` was answered in between. -/
theorem answered_between {s s' : World} (hStart : Steps P E clients (World.start b₀) s)
    (h : Steps P E clients s s') {i : Nat} (hIdle : s.calls i = .idle) {reply : Bytes}
    (hReply : s'.calls i = .returned (some reply)) :
    ∃ mid post message output ok,
      s'.history = s.history ++ mid ++ (some i, .request (clients i).pipe message) :: post ∧
      Sends P clients i message ∧
      (serve P E (clients i).pipe message
        (run P E b₀ (s.events ++ mid.map Prod.snd))).1 = some (output, ok) ∧
      reply = pipeResponse output := by
  have hNone := (keeps_of_steps hStart).calls i
  have hAnswered := (keeps_of_steps (hStart.trans h)).calls i
  rw [hIdle] at hNone
  rw [hReply] at hAnswered
  obtain ⟨pre, post, message, output, ok, hSplit, hSends, hServed, hIs⟩ := hAnswered
  obtain ⟨tail, hTail⟩ := history_of_steps h
  rw [hTail] at hSplit
  rcases List.append_eq_append_iff.mp hSplit with ⟨mid, rfl, hMid⟩ | ⟨mid, hMid, hRest⟩
  · refine ⟨mid, post, message, output, ok, by rw [hTail, hMid, List.append_assoc], hSends, ?_, hIs⟩
    rwa [List.map_append] at hServed
  · -- the message would have been handled before the call began
    cases mid with
    | nil =>
        rw [List.append_nil] at hMid
        subst hMid
        refine ⟨[], post, message, output, ok, ?_, hSends, ?_, hIs⟩
        · rw [hTail, List.append_nil]
          exact congrArg (_ ++ ·) hRest.symm
        · rwa [List.map_nil, List.append_nil]
    | cons entry mid =>
        obtain ⟨rfl, -⟩ := List.cons.inj hRest
        have hServedNone : s.served i = [] := hNone
        simp [World.served, hMid] at hServedNone

/-- Whatever other clients do and whichever deadlines pass, the Broker handles the message
of a call at most once; and a reply that the call returns is the Broker's answer to this
message, which it handled after the call began. -/
theorem call_served_once {s s' : World} (hStart : Steps P E clients (World.start b₀) s)
    (h : Steps P E clients s s') {i : Nat} (hIdle : s.calls i = .idle) :
    (s'.served i = [] ∨ ∃ message, Sends P clients i message ∧
      s'.served i = [.request (clients i).pipe message]) ∧
    ∀ reply, s'.calls i = .returned (some reply) → ∃ mid post message output ok,
      s'.history = s.history ++ mid ++ (some i, .request (clients i).pipe message) :: post ∧
      Sends P clients i message ∧
      (serve P E (clients i).pipe message
        (run P E b₀ (s.events ++ mid.map Prod.snd))).1 = some (output, ok) ∧
      reply = pipeResponse output :=
  ⟨(keeps_of_steps (hStart.trans h)).once i, fun _ hReply => answered_between hStart h hIdle hReply⟩

/-- While `Run` awaits the acknowledgement of a call, the reply stays in the pipe until the
call reads it; and once there is a byte to read, the call has read its reply. -/
theorem reply_kept {s : World} (hStart : Steps P E clients (World.start b₀) s)
    (hServer : s.server = .awaiting) {c : Connection} (hPipe : s.pipe = .connected c) {i : Nat}
    (hOwner : c.owner = some i) :
    (s.calls i = .written →
      ∃ reply, c.toClient = [reply] ∧ Answered P E clients b₀ s.history i reply) ∧
    ∀ byte rest, c.toServer = byte :: rest →
      ∃ reply, s.calls i = .returned (some reply) ∧ Answered P E clients b₀ s.history i reply := by
  have hServing := (keeps_of_steps hStart).serving c i hPipe hOwner
  rw [hServer] at hServing
  cases hServing with
  | opened hFresh | asked hFresh | left hFresh => exact absurd hFresh id
  | waiting _ hAnswered hEmpty hClient =>
      refine ⟨fun _ => ⟨_, hClient, hAnswered⟩, fun byte rest hByte => ?_⟩
      rw [hEmpty] at hByte
      cases hByte
  | answered hCall _ hEmpty _ | abandoned hCall hEmpty _ =>
      refine ⟨fun hWritten => ?_, fun byte rest hByte => ?_⟩
      · rw [hCall] at hWritten
        cases hWritten
      · rw [hEmpty] at hByte
        cases hByte
  | acknowledged hCall hAnswered _ =>
      refine ⟨fun hWritten => ?_, fun _ _ _ => ⟨_, hCall, hAnswered⟩⟩
      rw [hCall] at hWritten
      cases hWritten

/-- The world after a call of `i` that nobody disturbed: the reply is written, and the call
has yet to read it. -/
def World.replied (P : Platform) (E : Environment) (clients : Nat → Client) (i : Nat)
    (message output : Bytes) (s : World) : World :=
  { server := .awaiting
    pipe := .connected
      { owner := some i, client := (clients i).pipe, toClient := [pipeResponse output] }
    calls := Function.update s.calls i .written
    broker := step P E s.broker (.request (clients i).pipe message)
    history := s.history ++ [(some i, .request (clients i).pipe message)] }

/-- The call has returned, and the pipe is left to the next one. -/
def World.returns (P : Platform) (E : Environment) (clients : Nat → Client) (i : Nat)
    (message output : Bytes) (s : World) : World :=
  { s.replied P E clients i message output with
    server := .looping
    pipe := .disconnected
    calls := Function.update s.calls i (.returned (some (pipeResponse output))) }

section Undisturbed

variable {s : World} (hServer : s.server = .looping)
  (hPipe : s.pipe = .disconnected ∨ s.pipe = .listening) {i : Nat} (hIdle : s.calls i = .idle)
  {message output : Bytes} {ok : Bool} (hSends : Sends P clients i message)
  (hNonempty : message ≠ []) (hLength : message.length ≤ kMaxBrokerMessageBytes)
  (hServed : (serve P E (clients i).pipe message s.broker).1 = some (output, ok))
include hServer hPipe hIdle hSends hNonempty hLength hServed

theorem steps_replied : Steps P E clients s (s.replied P E clients i message output) := by
  have server {s s' : World} (h : ServerStep P E s s') : Step P E clients s s' := .server h
  have call {s s' : World} (h : CallStep P clients i s s') : Step P E clients s s' := .call i h
  have hConnected := ((Relation.ReflTransGen.single (server (.pends hServer hPipe))).tail
    (call (.opens hIdle rfl))).tail (server (.connects rfl rfl))
  have hRead := (hConnected.tail (call (.writes (World.setCall_self _ _ _) hSends rfl rfl))).tail
    (server (.reads rfl rfl rfl hNonempty hLength))
  have hWritten := (hRead.tail (server (.answers rfl rfl hServed))).tail
    (server (.writes rfl rfl rfl))
  simpa [World.setCall, World.happen, World.replied] using hWritten

theorem steps_returns : Steps P E clients s (s.returns P E clients i message output) := by
  have server {s s' : World} (h : ServerStep P E s s') : Step P E clients s s' := .server h
  have call {s s' : World} (h : CallStep P clients i s s') : Step P E clients s s' := .call i h
  have hWritten := steps_replied hServer hPipe hIdle hSends hNonempty hLength hServed
  have hReturned := (hWritten.tail (call (.reads (Function.update_self _ _ _) rfl rfl rfl))).tail
    (call (.acknowledges (World.setCall_self _ _ _) rfl rfl))
  have hDone := (hReturned.tail (server (.acknowledged rfl rfl rfl))).tail (server (.disconnects rfl))
  simpa [World.setCall, World.replied, World.returns] using hDone

end Undisturbed

/-! ## A client that is gone too early -/

/-- A client has connected before the first `ConnectNamedPipe`, and has closed its handle
since. -/
structure Stuck (s : World) : Prop where
  server : s.server = .looping
  closed : ∃ c, s.pipe = .connected c ∧ c.closed = true ∧
    ∀ i, c.owner = some i → ∃ reply, s.calls i = .returned reply

/-- A step after which the process still runs. -/
def RunsOn (P : Platform) (E : Environment) (clients : Nat → Client) (s s' : World) : Prop :=
  Step P E clients s s' ∧ s'.server ≠ .ended

/-- The reply that a call has. -/
def CallPhase.reply : CallPhase → Option Bytes
  | .answered reply => some reply
  | .returned reply => reply
  | _ => none

/-- From `s` to `s'`, the Broker is asked nothing and no call gets a reply. -/
structure Idles (s s' : World) : Prop where
  history : ∃ contents : List (Option Bytes),
    s'.history = s.history ++ contents.map fun content => (none, .tamper content)
  calls : ∀ i reply, (s'.calls i).reply = some reply → (s.calls i).reply = some reply

theorem Idles.trans {s s' s'' : World} (h : Idles s s') (h' : Idles s' s'') : Idles s s'' where
  history := by
    obtain ⟨contents, hContents⟩ := h.history
    obtain ⟨more, hMore⟩ := h'.history
    exact ⟨contents ++ more, by rw [hMore, hContents, List.map_append, List.append_assoc]⟩
  calls i reply hReply := h.calls i reply (h'.calls i reply hReply)

/-- A call that ends, with the reply it has, if it has one. -/
theorem Idles.of_ends {s s' : World} {i : Nat} (hHistory : s'.history = s.history)
    (hCalls : s'.calls = (s.setCall i (.returned (s.calls i).reply)).calls) : Idles s s' where
  history := ⟨[], by rw [hHistory, List.map_nil, List.append_nil]⟩
  calls j reply hReply := by
    rw [hCalls] at hReply
    by_cases hj : j = i
    · subst hj
      rwa [World.setCall_self] at hReply
    · rwa [World.setCall_of_ne hj] at hReply

namespace Stuck

/-- The call whose handle is closed makes no step. -/
theorem not_owner {s : World} (h : Stuck s) {i : Nat} (hRunning : ∀ reply, s.calls i ≠ .returned reply)
    {c : Connection} (hPipe : s.pipe = .connected c) : c.owner ≠ some i := by
  obtain ⟨c', hPipe', -, hReturned⟩ := h.closed
  obtain rfl : c' = c := by simpa [hPipe'] using hPipe
  intro hOwner
  obtain ⟨reply, hReply⟩ := hReturned i hOwner
  exact hRunning reply hReply

/-- A call that ends does not free the pipe. -/
theorem of_ends {s s' : World} (h : Stuck s) {i : Nat} (hRunning : ∀ reply, s.calls i ≠ .returned reply)
    {phase : CallPhase} (hServer : s'.server = s.server)
    (hPipe : s'.pipe = s.pipe ∨ s'.pipe = s.pipe.close i)
    (hCalls : s'.calls = (s.setCall i phase).calls) : Stuck s' := by
  obtain ⟨c, hConnected, hClosed, hReturned⟩ := h.closed
  have hOwner := h.not_owner hRunning hConnected
  have hSame : s'.pipe = .connected c := by
    rcases hPipe with hPipe | hPipe
    · rw [hPipe, hConnected]
    · rw [hPipe, hConnected, Instance.close, if_neg hOwner]
  refine ⟨hServer.trans h.server, c, hSame, hClosed, fun j hj => ?_⟩
  have hOther : j ≠ i := fun hEq => hOwner (hEq ▸ hj)
  rw [hCalls, World.setCall_of_ne hOther]
  exact hReturned j hj

theorem call {s s' : World} (h : Stuck s) {i : Nat} (hStep : CallStep P clients i s s') :
    Stuck s' ∧ Idles s s' := by
  cases hStep with
  | unavailable hCall =>
      refine ⟨h.of_ends (by simp [hCall]) rfl (.inl rfl) rfl, .of_ends (i := i) rfl ?_⟩
      rw [hCall]
      rfl
  | opens _ hPipe =>
      obtain ⟨c, hConnected, -⟩ := h.closed
      exact Instance.noConfusion (hPipe.symm.trans hConnected)
  | writes hCall _ hPipe hOwner | writesLate hCall _ hPipe hOwner | reads hCall hPipe hOwner _
  | acknowledges hCall hPipe hOwner =>
      exact absurd hOwner (h.not_owner (by simp [hCall]) hPipe)
  | fails hCall =>
      have hRunning : ∀ reply, s.calls i ≠ .returned reply := by
        rcases hCall with hCall | hCall <;> simp [hCall]
      refine ⟨h.of_ends hRunning rfl (.inr rfl) rfl, .of_ends (i := i) rfl ?_⟩
      rcases hCall with hCall | hCall <;> rw [hCall] <;> rfl
  | leaves hCall =>
      refine ⟨h.of_ends (by simp [hCall]) rfl (.inr rfl) rfl, .of_ends (i := i) rfl ?_⟩
      rw [hCall]
      rfl

theorem step {s s' : World} (h : Stuck s) (hStep : RunsOn P E clients s s') : Stuck s' ∧ Idles s s' := by
  obtain ⟨hStep, hRuns⟩ := hStep
  have hServer := h.server
  obtain ⟨c, hPipe, hClosed, hReturned⟩ := h.closed
  cases hStep with
  | server hStep =>
      cases hStep with
      | pends _ hIdle =>
          -- the instance still has the client that is gone
          rw [hPipe] at hIdle
          rcases hIdle with hIdle | hIdle <;> cases hIdle
      | connectsAtOnce _ hConnected hOpen =>
          rw [hPipe] at hConnected
          cases hConnected
          rw [hClosed] at hOpen
          cases hOpen
      | connectFails _ =>
          exact ⟨⟨rfl, c, hPipe, hClosed, hReturned⟩, ⟨[], (List.append_nil _).symm⟩,
            fun _ _ hReply => hReply⟩
      | stops _ => exact absurd rfl hRuns
      | connects hOther _ | reads hOther _ _ _ _ | readFails hOther | answers hOther _ _
      | dies hOther _ _ | writes hOther _ _ | writeFails hOther | writesLate hOther _
      | acknowledged hOther _ _ | acknowledgeFails hOther | disconnects hOther =>
          exact ServerPhase.noConfusion (hServer.symm.trans hOther)
  | call i hStep => exact h.call hStep
  | other hStep =>
      cases hStep with
      | starts hOther _ | startFails hOther =>
          exact ServerPhase.noConfusion (hServer.symm.trans hOther)
      | killed => exact absurd rfl hRuns
      | tampers content =>
          exact ⟨⟨hServer, c, hPipe, hClosed, hReturned⟩, ⟨[content], rfl⟩, fun _ _ hReply => hReply⟩
      | opens client hIdle => exact Instance.noConfusion (hPipe.symm.trans hIdle)
      | uses hConnected _ hOpen _ _ =>
          rw [hPipe] at hConnected
          cases hConnected
          rw [hClosed] at hOpen
          cases hOpen

end Stuck

/-- Once a client has connected before the first `ConnectNamedPipe` and closed its handle
again, `ConnectWithStop` fails each time and nothing disconnects the pipe: as long as the
process runs, the Broker is asked nothing and no call gets a reply. -/
theorem stuck_until_ended {s s' : World} (hStuck : Stuck s)
    (h : Relation.ReflTransGen (RunsOn P E clients) s s') : Stuck s' ∧ Idles s s' := by
  induction h with
  | refl => exact ⟨hStuck, ⟨[], by simp⟩, fun _ _ hReply => hReply⟩
  | tail _ hStep ih =>
      obtain ⟨hStill, hIdles⟩ := ih
      obtain ⟨hNext, hMore⟩ := hStill.step hStep
      exact ⟨hNext, hIdles.trans hMore⟩

section Example

open Reference BrokerClient

/-- Everybody asks for a challenge of `alice`. -/
def askers (_ : Nat) : Client := { pipe := alicePipe, call := .beginAuthentication aliceSid }

/-- The Broker process has started. -/
def started : World :=
  { server := .looping
    pipe := .listening
    broker := BrokerService.step (platform {}) calm keyBroker .restart
    history := [(none, .restart)] }

/-- The challenge that the first call gets. -/
def startedText : Bytes :=
  challengeText (text "DAwMDAwMDAwMDAwMDAwMDAwMDAwMDAwMDAwMDAwMDAw")
    (text "Dg4ODg4ODg4ODg4ODg4ODg4ODg4ODg4O")

theorem refreshed_keyBroker :
    (LocalCredentialStore.refreshLocalAccounts (platform {}) calm keyBroker.machine).1 =
        .returned (.ok ()) ∧
      (serve (platform {}) calm alicePipe sentText started.broker).1 = some (startedText, true) := by
  decide +kernel

theorem steps_started : Steps (platform {}) calm askers (World.start keyBroker) started :=
  .single (.other (.starts rfl refreshed_keyBroker.1))

/-- The first call has its reply in the pipe, and returns. -/
def repliedFirst : World := started.replied (platform {}) calm askers 0 sentText startedText

def returnedFirst : World := started.returns (platform {}) calm askers 0 sentText startedText

theorem sends_sentText : Sends (platform {}) askers 0 sentText := sent_sentText

theorem served_started :
    (serve (platform {}) calm (askers 0).pipe sentText started.broker).1 = some (startedText, true) := by
  have hPipe : (askers 0).pipe = alicePipe := rfl
  rw [hPipe]
  exact refreshed_keyBroker.2

theorem steps_returnedFirst : Steps (platform {}) calm askers started returnedFirst :=
  steps_returns rfl (.inr rfl) rfl sends_sentText (by decide +kernel) (by decide +kernel)
    served_started

theorem call_served_once_example :
    (returnedFirst.served 0 = [] ∨ ∃ message, Sends (platform {}) askers 0 message ∧
      returnedFirst.served 0 = [.request (askers 0).pipe message]) ∧
    ∀ reply, returnedFirst.calls 0 = .returned (some reply) → ∃ mid post message output ok,
      returnedFirst.history =
        started.history ++ mid ++ (some 0, .request (askers 0).pipe message) :: post ∧
      Sends (platform {}) askers 0 message ∧
      (serve (platform {}) calm (askers 0).pipe message
        (run (platform {}) calm keyBroker (started.events ++ mid.map Prod.snd))).1 = some (output, ok) ∧
      reply = pipeResponse output :=
  call_served_once steps_started steps_returnedFirst rfl

theorem reply_kept_example : ∃ c, repliedFirst.pipe = .connected c ∧
    (repliedFirst.calls 0 = .written → ∃ reply, c.toClient = [reply] ∧
      Answered (platform {}) calm askers keyBroker repliedFirst.history 0 reply) ∧
    ∀ byte rest, c.toServer = byte :: rest →
      ∃ reply, repliedFirst.calls 0 = .returned (some reply) ∧
        Answered (platform {}) calm askers keyBroker repliedFirst.history 0 reply := by
  have hReplied : Steps (platform {}) calm askers started repliedFirst :=
    steps_replied rfl (.inr rfl) rfl sends_sentText (by decide +kernel) (by decide +kernel)
      served_started
  exact ⟨_, rfl, reply_kept (steps_started.trans hReplied) rfl rfl rfl⟩

/-- The first call opens the pipe before `Run` listens, and fails. -/
def abandonedFirst : World :=
  { started with
    pipe := .connected { owner := some 0, client := (askers 0).pipe, closed := true }
    calls := Function.update (fun _ => .idle) 0 (.returned none) }

theorem steps_abandonedFirst : Steps (platform {}) calm askers started abandonedFirst := by
  have hOpened := Relation.ReflTransGen.single (r := Step (platform {}) calm askers)
    (.call 0 (.opens (s := started) rfl rfl))
  have hFailed := hOpened.tail (.call 0 (.fails (.inl (World.setCall_self 0 .opened started))))
  simpa [World.setCall, Instance.close, started, abandonedFirst] using hFailed

/-- Nobody is served any more: the second call does not get a reply either. -/
theorem stuck_until_ended_example :
    Steps (platform {}) calm askers (World.start keyBroker) abandonedFirst ∧
      Stuck (abandonedFirst.setCall 1 (.returned none)) ∧
      Idles abandonedFirst (abandonedFirst.setCall 1 (.returned none)) := by
  have hStuck : Stuck abandonedFirst := by
    refine ⟨rfl, _, rfl, rfl, fun i hOwner => ⟨none, ?_⟩⟩
    obtain rfl : 0 = i := Option.some.inj hOwner
    simp [abandonedFirst]
  have hStep : RunsOn (platform {}) calm askers abandonedFirst
      (abandonedFirst.setCall 1 (.returned none)) := ⟨.call 1 (.unavailable rfl), nofun⟩
  exact ⟨steps_started.trans steps_abandonedFirst, stuck_until_ended hStuck (.single hStep)⟩

end Example

end BrokerPipe
end WindowsFidoLogon
