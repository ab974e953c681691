import Mathlib.Logic.Function.Basic
import Mathlib.Logic.Relation
import WindowsFidoLogon.Broker.Run
import WindowsFidoLogon.Model.BrokerClient
import WindowsFidoLogon.Model.BrokerPipe

/-!
# The pipe between the clients and the Broker

`BrokerService::Run` refreshes the store and serves one instance of the pipe, one connection
after the other, and gives up every read and write after a deadline.  `BrokerClient::Call` opens a connection,
writes its message, reads one reply, writes a byte to acknowledge it and closes.  Any other
program may open the pipe too and do with its connection what it likes.

A step of `World` is one call to the system that one of them makes.  `Keeps` says how far
the connection of a call is in each phase of `Run`, and `keeps_of_steps` that every world
the steps lead to keeps it.
-/

namespace WindowsFidoLogon
namespace BrokerPipe

open Text BrokerService

/-! ## The instance of the pipe -/

/-- What the instance holds for the client that is connected. -/
structure Connection where
  /-- the `Call` that opened it, if it was one -/
  owner : Option Nat
  client : PipeClient
  toServer : List Bytes := []
  toClient : List Bytes := []
  /-- the client has closed its handle -/
  closed : Bool := false

inductive Instance
  | missing
  | disconnected
  | listening
  | connected (c : Connection)

/-- `CloseHandle` of the call `i`: its connection may be gone already. -/
def Instance.close (i : Nat) : Instance → Instance
  | .connected c => .connected (if c.owner = some i then { c with closed := true } else c)
  | pipe => pipe

/-! ## The parties -/

/-- Where `Run` is. -/
inductive ServerPhase
  /-- at the head of its loop -/
  | looping
  /-- in `ConnectWithStop`, with `ConnectNamedPipe` pending -/
  | connecting
  /-- in the `ReadWithDeadline` of the request -/
  | reading
  /-- in `ProcessRequest` -/
  | processing (request : Bytes)
  /-- in `WriteWithDeadline` -/
  | writing (response : Bytes)
  /-- in the `ReadWithDeadline` of the acknowledgement -/
  | awaiting
  /-- before `DisconnectNamedPipe` -/
  | disconnecting
  /-- there is no Broker process -/
  | ended

/-- Where a `Call` is. -/
inductive CallPhase
  | idle
  /-- `CreateFileW` has connected it -/
  | opened
  /-- the message is written -/
  | written
  /-- the reply is read -/
  | answered (reply : Bytes)
  /-- it is over, with this reply or without one -/
  | returned (reply : Option Bytes)
  deriving DecidableEq

/-- A client with the `Call` it makes. -/
structure Client where
  pipe : PipeClient
  call : BrokerClient.Call

structure World where
  server : ServerPhase := .ended
  pipe : Instance := .missing
  calls : Nat → CallPhase := fun _ => .idle
  broker : Broker
  /-- What happened to the Broker, and whose request it was.  No step reads this record. -/
  history : List (Option Nat × Event) := []

namespace World

def events (s : World) : List Event := s.history.map Prod.snd

/-- What the Broker was sent by the call `i`. -/
def served (s : World) (i : Nat) : List Event :=
  (s.history.filter fun entry => entry.1 = some i).map Prod.snd

def happen (P : Platform) (E : Environment) (owner : Option Nat) (e : Event) (s : World) : World :=
  { s with broker := step P E s.broker e, history := s.history ++ [(owner, e)] }

def setCall (i : Nat) (phase : CallPhase) (s : World) : World :=
  { s with calls := Function.update s.calls i phase }

end World

/-! ## Steps -/

section Steps

variable (P : Platform) (E : Environment) (clients : Nat → Client)

/-- A step of `Run`. -/
inductive ServerStep : World → World → Prop
  | pends {s : World} : s.server = .looping → s.pipe = .disconnected ∨ s.pipe = .listening →
      ServerStep s { s with server := .connecting, pipe := .listening }
  /-- `ERROR_PIPE_CONNECTED`; for a client that is gone again, `ConnectNamedPipe` fails
  and the loop goes on. -/
  | connectsAtOnce {s : World} {c : Connection} : s.server = .looping → s.pipe = .connected c →
      c.closed = false → ServerStep s { s with server := .reading }
  | connects {s : World} {c : Connection} : s.server = .connecting → s.pipe = .connected c →
      ServerStep s { s with server := .reading }
  /-- `CreateEventW`, `ConnectNamedPipe` or the wait for it fails, and the loop goes on; the
  instance, and a client that has connected to it, stay as they are -/
  | connectFails {s : World} : s.server = .looping ∨ s.server = .connecting →
      ServerStep s { s with server := .looping }
  | stops {s : World} : s.server = .looping ∨ s.server = .connecting →
      ServerStep s { s with server := .ended, pipe := .missing }
  | reads {s : World} {c : Connection} {request : Bytes} {rest : List Bytes} :
      s.server = .reading → s.pipe = .connected c → c.toServer = request :: rest →
      request ≠ [] → request.length ≤ kMaxBrokerMessageBytes →
      ServerStep s
        { s with server := .processing request, pipe := .connected { c with toServer := rest } }
  | readFails {s : World} : s.server = .reading → ServerStep s { s with server := .disconnecting }
  | answers {s : World} {c : Connection} {request output : Bytes} {ok : Bool} :
      s.server = .processing request → s.pipe = .connected c →
      (serve P E c.client request s.broker).1 = some (output, ok) →
      ServerStep s { s.happen P E c.owner (.request c.client request) with
        server := .writing (pipeResponse output) }
  /-- an exception leaves `ProcessRequest`, or the machine stops -/
  | dies {s : World} {c : Connection} {request : Bytes} :
      s.server = .processing request → s.pipe = .connected c →
      (serve P E c.client request s.broker).1 = none →
      ServerStep s { s.happen P E c.owner (.request c.client request) with
        server := .ended, pipe := .missing }
  | writes {s : World} {c : Connection} {response : Bytes} : s.server = .writing response →
      s.pipe = .connected c → c.closed = false →
      ServerStep s { s with
        server := .awaiting, pipe := .connected { c with toClient := c.toClient ++ [response] } }
  | writeFails {s : World} {response : Bytes} : s.server = .writing response →
      ServerStep s { s with server := .disconnecting }
  /-- the response was written as its deadline came -/
  | writesLate {s : World} {c : Connection} {response : Bytes} : s.server = .writing response →
      s.pipe = .connected c →
      ServerStep s { s with
        server := .disconnecting
        pipe := .connected { c with toClient := c.toClient ++ [response] } }
  | acknowledged {s : World} {c : Connection} {byte : Bytes} {rest : List Bytes} :
      s.server = .awaiting → s.pipe = .connected c → c.toServer = byte :: rest →
      ServerStep s
        { s with server := .disconnecting, pipe := .connected { c with toServer := rest } }
  | acknowledgeFails {s : World} : s.server = .awaiting →
      ServerStep s { s with server := .disconnecting }
  /-- `DisconnectNamedPipe` succeeds on an instance that a client was connected to -/
  | disconnects {s : World} : s.server = .disconnecting →
      ServerStep s { s with server := .looping, pipe := .disconnected }

/-- A step of the call `i`. -/
inductive CallStep (i : Nat) : World → World → Prop
  /-- `WaitNamedPipeW` or `CreateFileW` fails -/
  | unavailable {s : World} : s.calls i = .idle → CallStep i s (s.setCall i (.returned none))
  | opens {s : World} : s.calls i = .idle → s.pipe = .listening →
      CallStep i s { s.setCall i .opened with
        pipe := .connected { owner := some i, client := (clients i).pipe } }
  | writes {s : World} {c : Connection} {message : Bytes} : s.calls i = .opened →
      BrokerClient.callMessage P ((clients i).call.request P) = .ok message →
      s.pipe = .connected c → c.owner = some i →
      CallStep i s { s.setCall i .written with
        pipe := .connected { c with toServer := c.toServer ++ [message] } }
  /-- the message was written as its deadline came -/
  | writesLate {s : World} {c : Connection} {message : Bytes} : s.calls i = .opened →
      BrokerClient.callMessage P ((clients i).call.request P) = .ok message →
      s.pipe = .connected c → c.owner = some i →
      CallStep i s { s.setCall i (.returned none) with
        pipe := .connected { c with toServer := c.toServer ++ [message], closed := true } }
  | reads {s : World} {c : Connection} {reply : Bytes} {rest : List Bytes} :
      s.calls i = .written → s.pipe = .connected c → c.owner = some i → c.toClient = reply :: rest →
      CallStep i s { s.setCall i (.answered reply) with
        pipe := .connected { c with toClient := rest } }
  /-- nothing is serialized, written or read -/
  | fails {s : World} : s.calls i = .opened ∨ s.calls i = .written →
      CallStep i s { s.setCall i (.returned none) with pipe := s.pipe.close i }
  | acknowledges {s : World} {c : Connection} {reply : Bytes} : s.calls i = .answered reply →
      s.pipe = .connected c → c.owner = some i →
      CallStep i s { s.setCall i (.returned (some reply)) with
        pipe := .connected { c with toServer := c.toServer ++ [[1]], closed := true } }
  /-- the acknowledgement could not be written -/
  | leaves {s : World} {reply : Bytes} : s.calls i = .answered reply →
      CallStep i s { s.setCall i (.returned (some reply)) with pipe := s.pipe.close i }

/-- A step of the machine, or of a program that is no `Call`. -/
inductive OtherStep : World → World → Prop
  /-- a process enters `Run`, which refreshes the store and makes the instance -/
  | starts {s : World} : s.server = .ended →
      (LocalCredentialStore.refreshLocalAccounts P E s.broker.machine).1 = .returned (.ok ()) →
      OtherStep s { s.happen P E none .restart with server := .looping, pipe := .listening }
  /-- the refresh fails, or the instance cannot be made, and the process ends again -/
  | startFails {s : World} : s.server = .ended → OtherStep s (s.happen P E none .restart)
  | killed (s : World) : OtherStep s { s with server := .ended, pipe := .missing }
  | tampers (s : World) (content : Option Bytes) :
      OtherStep s (s.happen P E none (.tamper content))
  | opens {s : World} (client : PipeClient) : s.pipe = .listening →
      OtherStep s { s with pipe := .connected { owner := none, client } }
  /-- it writes, reads or closes -/
  | uses {s : World} {c c' : Connection} : s.pipe = .connected c → c.owner = none →
      c.closed = false → c'.owner = none → c'.client = c.client → OtherStep s { s with pipe := .connected c' }

inductive Step (s s' : World) : Prop
  | server : ServerStep P E s s' → Step s s'
  | call (i : Nat) : CallStep P clients i s s' → Step s s'
  | other : OtherStep P E s s' → Step s s'

/-- Any number of steps. -/
abbrev Steps : World → World → Prop := Relation.ReflTransGen (Step P E clients)

end Steps

namespace World

@[simp] theorem setCall_self (i : Nat) (phase : CallPhase) (s : World) :
    (s.setCall i phase).calls i = phase := by
  simp [setCall]

theorem setCall_of_ne {i j : Nat} (h : j ≠ i) (phase : CallPhase) (s : World) :
    (s.setCall i phase).calls j = s.calls j := by
  simp [setCall, h]

variable (P : Platform) (E : Environment)

@[simp] theorem happen_calls (owner : Option Nat) (e : Event) (s : World) :
    (s.happen P E owner e).calls = s.calls := rfl

@[simp] theorem happen_pipe (owner : Option Nat) (e : Event) (s : World) :
    (s.happen P E owner e).pipe = s.pipe := rfl

@[simp] theorem happen_server (owner : Option Nat) (e : Event) (s : World) :
    (s.happen P E owner e).server = s.server := rfl

theorem happen_served_of_ne {owner : Option Nat} {i : Nat} (h : owner ≠ some i) (e : Event)
    (s : World) : (s.happen P E owner e).served i = s.served i := by
  simp [happen, served, h]

end World

/-! ## What every state keeps -/

variable {P : Platform} {E : Environment} {clients : Nat → Client} {b₀ : Broker}

/-- `message` is what the call `i` writes. -/
def Sends (P : Platform) (clients : Nat → Client) (i : Nat) (message : Bytes) : Prop :=
  BrokerClient.callMessage P ((clients i).call.request P) = .ok message

/-- The Broker handled the message of the call `i`, and `reply` is its answer. -/
def Answered (P : Platform) (E : Environment) (clients : Nat → Client) (b₀ : Broker)
    (history : List (Option Nat × Event)) (i : Nat) (reply : Bytes) : Prop :=
  ∃ pre post message output ok,
    history = pre ++ (some i, .request (clients i).pipe message) :: post ∧
    Sends P clients i message ∧
    (serve P E (clients i).pipe message (run P E b₀ (pre.map Prod.snd))).1 = some (output, ok) ∧
    reply = pipeResponse output

theorem Answered.later {history : List (Option Nat × Event)} {i : Nat} {reply : Bytes}
    (h : Answered P E clients b₀ history i reply) (entry : Option Nat × Event) :
    Answered P E clients b₀ (history ++ [entry]) i reply := by
  obtain ⟨pre, post, message, output, ok, rfl, hSends, hServed, hReply⟩ := h
  exact ⟨pre, post ++ [entry], message, output, ok, by simp, hSends, hServed, hReply⟩

/-- `Run` has not read a message of this connection. -/
def IsFresh : ServerPhase → Prop
  | .looping | .connecting | .reading => True
  | _ => False

/-- How far the connection of the call `i` is. -/
inductive Serving (P : Platform) (E : Environment) (clients : Nat → Client) (b₀ : Broker)
    (s : World) (i : Nat) (c : Connection) : ServerPhase → Prop
  | opened {server : ServerPhase} : IsFresh server → s.calls i = .opened → s.served i = [] →
      c.toServer = [] → c.toClient = [] → Serving P E clients b₀ s i c server
  | asked {server : ServerPhase} {message : Bytes} : IsFresh server →
      s.calls i = .written ∨ s.calls i = .returned none → s.served i = [] →
      Sends P clients i message → c.toServer = [message] → c.toClient = [] →
      Serving P E clients b₀ s i c server
  | left {server : ServerPhase} : IsFresh server → s.calls i = .returned none → s.served i = [] →
      c.toServer = [] → c.toClient = [] → Serving P E clients b₀ s i c server
  | processing {request : Bytes} : s.calls i = .written ∨ s.calls i = .returned none →
      s.served i = [] → Sends P clients i request → c.toServer = [] → c.toClient = [] →
      Serving P E clients b₀ s i c (.processing request)
  | writing {response : Bytes} : s.calls i = .written ∨ s.calls i = .returned none →
      Answered P E clients b₀ s.history i response → c.toServer = [] → c.toClient = [] →
      Serving P E clients b₀ s i c (.writing response)
  | waiting {response : Bytes} : s.calls i = .written →
      Answered P E clients b₀ s.history i response → c.toServer = [] → c.toClient = [response] →
      Serving P E clients b₀ s i c .awaiting
  | answered {response : Bytes} : s.calls i = .answered response →
      Answered P E clients b₀ s.history i response → c.toServer = [] → c.toClient = [] →
      Serving P E clients b₀ s i c .awaiting
  | acknowledged {response : Bytes} : s.calls i = .returned (some response) →
      Answered P E clients b₀ s.history i response → c.toClient = [] →
      Serving P E clients b₀ s i c .awaiting
  | abandoned : s.calls i = .returned none → c.toServer = [] →
      (∀ reply ∈ c.toClient, Answered P E clients b₀ s.history i reply) →
      Serving P E clients b₀ s i c .awaiting
  | disconnecting : s.calls i ≠ .idle →
      (∀ reply ∈ c.toClient, Answered P E clients b₀ s.history i reply) →
      Serving P E clients b₀ s i c .disconnecting

theorem Serving.begun {s : World} {i : Nat} {c : Connection} {server : ServerPhase}
    (h : Serving P E clients b₀ s i c server) : s.calls i ≠ .idle := by
  cases h with
  | disconnecting hBegun _ => exact hBegun
  | asked _ hCall _ _ _ _ | processing hCall _ _ _ _ | writing hCall _ _ _ =>
      rcases hCall with hCall | hCall <;> simp [hCall]
  | opened _ hCall _ _ _ | left _ hCall _ _ _ | waiting hCall _ _ _ | answered hCall _ _ _
  | acknowledged hCall _ _ | abandoned hCall _ _ => simp [hCall]

/-- What waits for the client is the answer to its message. -/
theorem Serving.replies {s : World} {i : Nat} {c : Connection} {server : ServerPhase}
    (h : Serving P E clients b₀ s i c server) :
    ∀ reply ∈ c.toClient, Answered P E clients b₀ s.history i reply := by
  cases h with
  | disconnecting _ hReplies | abandoned _ _ hReplies => exact hReplies
  | waiting _ hAnswered _ hClient =>
      intro reply hReply
      rw [hClient, List.mem_singleton] at hReply
      rwa [hReply]
  | opened _ _ _ _ hClient | asked _ _ _ _ _ hClient | left _ _ _ _ hClient
  | processing _ _ _ _ hClient | writing _ _ _ hClient | answered _ _ _ hClient
  | acknowledged _ _ hClient =>
      rw [hClient]
      exact fun _ hNone => absurd hNone List.not_mem_nil

/-- A message that was not read yet is not served either. -/
theorem Serving.fresh {s s' : World} {i : Nat} {c : Connection} {server server' : ServerPhase}
    (h : Serving P E clients b₀ s i c server) (hFresh : IsFresh server) (hFresh' : IsFresh server')
    (hCalls : s'.calls = s.calls) (hHistory : s'.history = s.history) :
    Serving P E clients b₀ s' i c server' := by
  have hServed : s'.served i = s.served i := by rw [World.served, hHistory, World.served]
  cases h with
  | opened _ hCall hNone hServer hClient =>
      exact .opened hFresh' (hCalls ▸ hCall) (hServed ▸ hNone) hServer hClient
  | asked _ hCall hNone hSends hServer hClient =>
      exact .asked hFresh' (hCalls ▸ hCall) (hServed ▸ hNone) hSends hServer hClient
  | left _ hCall hNone hServer hClient =>
      exact .left hFresh' (hCalls ▸ hCall) (hServed ▸ hNone) hServer hClient
  | processing | writing | waiting | answered | acknowledged | abandoned | disconnecting =>
      exact absurd hFresh id

/-- What happens apart from the call changes nothing for its connection. -/
theorem Serving.congr {s s' : World} {i : Nat} {c : Connection} {server : ServerPhase}
    (h : Serving P E clients b₀ s i c server) (hCall : s'.calls i = s.calls i)
    (hServed : s'.served i = s.served i)
    (hLater : ∀ {reply}, Answered P E clients b₀ s.history i reply →
      Answered P E clients b₀ s'.history i reply) : Serving P E clients b₀ s' i c server := by
  cases h with
  | opened hFresh hPhase hNone hServer hClient =>
      exact .opened hFresh (hCall.trans hPhase) (hServed.trans hNone) hServer hClient
  | asked hFresh hPhase hNone hSends hServer hClient =>
      exact .asked hFresh (by rwa [hCall]) (hServed.trans hNone) hSends hServer hClient
  | left hFresh hPhase hNone hServer hClient =>
      exact .left hFresh (hCall.trans hPhase) (hServed.trans hNone) hServer hClient
  | processing hPhase hNone hSends hServer hClient =>
      exact .processing (by rwa [hCall]) (hServed.trans hNone) hSends hServer hClient
  | writing hPhase hAnswered hServer hClient =>
      exact .writing (by rwa [hCall]) (hLater hAnswered) hServer hClient
  | waiting hPhase hAnswered hServer hClient =>
      exact .waiting (hCall.trans hPhase) (hLater hAnswered) hServer hClient
  | answered hPhase hAnswered hServer hClient =>
      exact .answered (hCall.trans hPhase) (hLater hAnswered) hServer hClient
  | acknowledged hPhase hAnswered hClient =>
      exact .acknowledged (hCall.trans hPhase) (hLater hAnswered) hClient
  | abandoned hPhase hServer hReplies =>
      exact .abandoned (hCall.trans hPhase) hServer fun reply hMem => hLater (hReplies reply hMem)
  | disconnecting hBegun hReplies =>
      exact .disconnecting (by rwa [hCall]) fun reply hMem => hLater (hReplies reply hMem)

/-- What the phase of the call `i` says about the history. -/
def Accounted (P : Platform) (E : Environment) (clients : Nat → Client) (b₀ : Broker)
    (s : World) (i : Nat) : CallPhase → Prop
  | .idle | .opened => s.served i = []
  | .written | .returned none => True
  | .answered reply | .returned (some reply) => Answered P E clients b₀ s.history i reply

/-- `Run` is in `ConnectWithStop` or before it. -/
def IsListening : ServerPhase → Prop
  | .looping | .connecting => True
  | _ => False

structure Keeps (P : Platform) (E : Environment) (clients : Nat → Client) (b₀ : Broker)
    (s : World) : Prop where
  broker : s.broker = run P E b₀ s.events
  listening : s.pipe = .listening → IsListening s.server
  once : ∀ i, s.served i = [] ∨
    ∃ message, Sends P clients i message ∧ s.served i = [.request (clients i).pipe message]
  calls : ∀ i, Accounted P E clients b₀ s i (s.calls i)
  client : ∀ c i, s.pipe = .connected c → c.owner = some i → c.client = (clients i).pipe
  serving : ∀ c i, s.pipe = .connected c → c.owner = some i →
    Serving P E clients b₀ s i c s.server

/-! ### Steps of the server -/

namespace Keeps

/-- A step that leaves the calls and the history alone, and no new connection in the pipe. -/
theorem of_pipe {s s' : World} (h : Keeps P E clients b₀ s) (hCalls : s'.calls = s.calls)
    (hBroker : s'.broker = s.broker) (hHistory : s'.history = s.history)
    (hListening : s'.pipe = .listening → IsListening s'.server)
    (hClient : ∀ c' i, s'.pipe = .connected c' → c'.owner = some i →
      ∃ c, s.pipe = .connected c ∧ c.owner = some i ∧ c'.client = c.client)
    (hServing : ∀ c' i, s'.pipe = .connected c' → c'.owner = some i →
      Serving P E clients b₀ s' i c' s'.server) : Keeps P E clients b₀ s' := by
  have hServed : ∀ i, s'.served i = s.served i := fun i => by rw [World.served, hHistory, World.served]
  refine ⟨?_, hListening, fun i => ?_, fun i => ?_, fun c' i hPipe hOwner => ?_, hServing⟩
  · rw [hBroker, h.broker, World.events, World.events, hHistory]
  · rw [hServed]
    exact h.once i
  · have hCall := h.calls i
    rw [hCalls]
    cases hPhase : s.calls i with
    | returned reply =>
        rw [hPhase] at hCall
        cases reply with
        | none => trivial
        | some reply => simpa only [Accounted, hHistory] using hCall
    | written => trivial
    | idle | opened | answered _ =>
        rw [hPhase] at hCall
        simpa only [Accounted, hServed, hHistory] using hCall
  · obtain ⟨c, hConnected, hSameOwner, hSameClient⟩ := hClient c' i hPipe hOwner
    rw [hSameClient]
    exact h.client c i hConnected hSameOwner

/-- A step in which the Broker changes, in answer to the call `i` at most. -/
theorem of_happens {s s' : World} (h : Keeps P E clients b₀ s) {owner : Option Nat} {e : Event}
    (hOwn : ∀ i, owner = some i → s.served i = [] ∧
      (s.calls i = .written ∨ s.calls i = .returned none) ∧
      ∃ message, Sends P clients i message ∧ e = .request (clients i).pipe message)
    (hCalls : s'.calls = s.calls) (hBroker : s'.broker = step P E s.broker e)
    (hHistory : s'.history = s.history ++ [(owner, e)])
    (hListening : s'.pipe = .listening → IsListening s'.server)
    (hClient : ∀ c', s'.pipe = .connected c' → s.pipe = .connected c')
    (hServing : ∀ c' i, s'.pipe = .connected c' → c'.owner = some i →
      Serving P E clients b₀ s' i c' s'.server) : Keeps P E clients b₀ s' := by
  have hServed : ∀ i, owner ≠ some i → s'.served i = s.served i := fun i hOther => by
    simp [World.served, hHistory, hOther]
  refine ⟨?_, hListening, fun i => ?_, fun i => ?_, fun c' i hPipe => h.client c' i (hClient c' hPipe),
    hServing⟩
  · rw [hBroker, h.broker, World.events, World.events, hHistory, List.map_append]
    exact (run_concat b₀ _ e).symm
  · by_cases hOwner : owner = some i
    · -- only the call that sent the request is served by it
      obtain ⟨hNone, -, message, hSends, rfl⟩ := hOwn i hOwner
      refine .inr ⟨message, hSends, ?_⟩
      have hSplit : s'.served i = s.served i ++ [.request (clients i).pipe message] := by
        simp [World.served, hHistory, hOwner]
      rw [hSplit, hNone, List.nil_append]
    · rw [hServed i hOwner]
      exact h.once i
  · have hCall := h.calls i
    rw [hCalls]
    by_cases hOwner : owner = some i
    · obtain ⟨-, hPhase | hPhase, -⟩ := hOwn i hOwner <;> rw [hPhase] <;> trivial
    · cases hPhase : s.calls i with
      | idle | opened =>
          rw [hPhase] at hCall
          exact (hServed i hOwner).trans hCall
      | written => trivial
      | answered reply =>
          rw [hPhase] at hCall
          show Answered P E clients b₀ s'.history i reply
          rw [hHistory]
          exact Answered.later hCall _
      | returned reply =>
          rw [hPhase] at hCall
          cases reply with
          | none => trivial
          | some reply =>
              show Answered P E clients b₀ s'.history i reply
              rw [hHistory]
              exact Answered.later hCall _

/-- The request in `ProcessRequest` is the message of the call that is connected. -/
theorem of_processing {s : World} (h : Keeps P E clients b₀ s) {c : Connection} {request : Bytes}
    (hServer : s.server = .processing request) (hPipe : s.pipe = .connected c) {i : Nat}
    (hOwner : c.owner = some i) :
    s.served i = [] ∧ (s.calls i = .written ∨ s.calls i = .returned none) ∧
      Sends P clients i request ∧ c.toServer = [] ∧ c.toClient = [] ∧
      c.client = (clients i).pipe := by
  have hServing := h.serving c i hPipe hOwner
  rw [hServer] at hServing
  cases hServing with
  | processing hCall hNone hSends hEmpty hClient =>
      exact ⟨hNone, hCall, hSends, hEmpty, hClient, h.client c i hPipe hOwner⟩
  | opened hFresh | asked hFresh | left hFresh => exact absurd hFresh id

/-- Nothing waits for a client that `Run` writes to. -/
theorem of_writing {s : World} (h : Keeps P E clients b₀ s) {c : Connection} {response : Bytes}
    (hServer : s.server = .writing response) (hPipe : s.pipe = .connected c) {i : Nat}
    (hOwner : c.owner = some i) :
    (s.calls i = .written ∨ s.calls i = .returned none) ∧
      Answered P E clients b₀ s.history i response ∧ c.toServer = [] ∧ c.toClient = [] := by
  have hServing := h.serving c i hPipe hOwner
  rw [hServer] at hServing
  cases hServing with
  | writing hCall hAnswered hEmpty hClient => exact ⟨hCall, hAnswered, hEmpty, hClient⟩
  | opened hFresh | asked hFresh | left hFresh => exact absurd hFresh id

/-- The answer of `ProcessRequest` joins the history. -/
theorem answered {s : World} (h : Keeps P E clients b₀ s) {c : Connection} {request output : Bytes}
    {ok : Bool} (hServer : s.server = .processing request) (hPipe : s.pipe = .connected c)
    (hServed : (serve P E c.client request s.broker).1 = some (output, ok)) {i : Nat}
    (hOwner : c.owner = some i) :
    Answered P E clients b₀ (s.history ++ [(c.owner, .request c.client request)]) i
      (pipeResponse output) := by
  obtain ⟨-, -, hSends, -, -, hClient⟩ := h.of_processing hServer hPipe hOwner
  rw [hClient] at hServed ⊢
  rw [hOwner]
  refine ⟨s.history, [], request, output, ok, rfl, hSends, ?_, rfl⟩
  rw [h.broker] at hServed
  exact hServed

theorem server {s s' : World} (h : Keeps P E clients b₀ s) (hStep : ServerStep P E s s') :
    Keeps P E clients b₀ s' := by
  cases hStep with
  | pends _ _ => exact h.of_pipe rfl rfl rfl (fun _ => trivial) nofun nofun
  | stops _ | disconnects _ => exact h.of_pipe rfl rfl rfl nofun nofun nofun
  | connectFails hServer =>
      refine h.of_pipe rfl rfl rfl (fun _ => trivial) (fun c' _ hSame hOwner => ⟨c', hSame, hOwner, rfl⟩)
        fun c' i hSame hOwner => ?_
      refine (h.serving c' i hSame hOwner).fresh ?_ trivial rfl rfl
      rcases hServer with hServer | hServer <;> rw [hServer] <;> trivial
  | connectsAtOnce hServer hPipe _ | connects hServer hPipe =>
      refine h.of_pipe rfl rfl rfl (fun hIdle => Instance.noConfusion (hPipe.symm.trans hIdle))
        (fun c' _ hSame hOwner => ⟨c', hSame, hOwner, rfl⟩) fun c' i hSame hOwner => ?_
      exact (h.serving c' i hSame hOwner).fresh (by rw [hServer]; trivial) trivial rfl rfl
  | @reads c request rest hServer hPipe hFirst _ _ =>
      refine h.of_pipe rfl rfl rfl nofun ?_ ?_
      · rintro c' i ⟨⟩ hOwner
        exact ⟨c, hPipe, hOwner, rfl⟩
      · rintro c' i ⟨⟩ hOwner
        have hServing := h.serving c i hPipe hOwner
        rw [hServer] at hServing
        -- only a call that has written and was not served yet has a message there
        cases hServing with
        | opened _ _ _ hEmpty _ | left _ _ _ hEmpty _ =>
            rw [hEmpty] at hFirst
            cases hFirst
        | asked _ hCall hNone hSends hMessage hClient =>
            rw [hMessage] at hFirst
            cases hFirst
            exact .processing hCall hNone hSends rfl hClient
  | readFails hServer | writeFails hServer | acknowledgeFails hServer =>
      refine h.of_pipe rfl rfl rfl (fun hIdle => ?_) (fun c' _ hSame hOwner => ⟨c', hSame, hOwner, rfl⟩)
        fun c' i hSame hOwner => ?_
      · have hListening := h.listening hIdle
        rw [hServer] at hListening
        exact hListening
      · have hServing := h.serving c' i hSame hOwner
        -- what was written may still be read until the pipe is disconnected
        exact .disconnecting hServing.begun hServing.replies
  | @answers c request output ok hServer hPipe hServed =>
      refine h.of_happens (fun i hOwner => ?_) rfl rfl rfl
        (fun hIdle => Instance.noConfusion (hPipe.symm.trans hIdle)) (fun _ hSame => hSame) ?_
      · obtain ⟨hNone, hCall, hSends, -, -, hClient⟩ := h.of_processing hServer hPipe hOwner
        exact ⟨hNone, hCall, request, hSends, by rw [hClient]⟩
      · intro c' i hSame hOwner
        obtain rfl : c = c' := by simpa [hPipe] using hSame
        obtain ⟨-, hCall, -, hEmpty, hClient, -⟩ := h.of_processing hServer hPipe hOwner
        exact .writing hCall (h.answered hServer hPipe hServed hOwner) hEmpty hClient
  | @dies c request hServer hPipe _ =>
      refine h.of_happens (fun i hOwner => ?_) rfl rfl rfl nofun nofun nofun
      obtain ⟨hNone, hCall, hSends, -, -, hClient⟩ := h.of_processing hServer hPipe hOwner
      exact ⟨hNone, hCall, request, hSends, by rw [hClient]⟩
  | @writes c response hServer hPipe _ =>
      refine h.of_pipe rfl rfl rfl nofun ?_ ?_
      · rintro c' i ⟨⟩ hOwner
        exact ⟨c, hPipe, hOwner, rfl⟩
      · rintro c' i ⟨⟩ hOwner
        obtain ⟨hCall, hAnswered, hEmpty, hClient⟩ := h.of_writing hServer hPipe hOwner
        have hOnly : c.toClient ++ [response] = [response] := by rw [hClient, List.nil_append]
        -- the call may have given up while the Broker handled its message
        rcases hCall with hCall | hCall
        · exact .waiting hCall hAnswered hEmpty hOnly
        · refine .abandoned hCall hEmpty fun reply hReply => ?_
          obtain rfl := List.mem_singleton.mp (hOnly ▸ hReply)
          exact hAnswered
  | @writesLate c response hServer hPipe =>
      refine h.of_pipe rfl rfl rfl nofun ?_ ?_
      · rintro c' i ⟨⟩ hOwner
        exact ⟨c, hPipe, hOwner, rfl⟩
      · rintro c' i ⟨⟩ hOwner
        obtain ⟨-, hAnswered, -, hClient⟩ := h.of_writing hServer hPipe hOwner
        refine .disconnecting (h.serving c i hPipe hOwner).begun fun reply hReply => ?_
        have hOnly : reply = response := by simpa [hClient] using hReply
        rwa [hOnly]
  | @acknowledged c byte rest hServer hPipe _ =>
      refine h.of_pipe rfl rfl rfl nofun ?_ ?_
      · rintro c' i ⟨⟩ hOwner
        exact ⟨c, hPipe, hOwner, rfl⟩
      · rintro c' i ⟨⟩ hOwner
        have hServing := h.serving c i hPipe hOwner
        exact .disconnecting hServing.begun hServing.replies

/-! ### Steps of a call -/

/-- A step of the call `i` that leaves no connection of another call in the pipe but the one
that was there. -/
theorem of_call {s s' : World} (h : Keeps P E clients b₀ s) {i : Nat} (phase : CallPhase)
    (hCalls : s'.calls = (s.setCall i phase).calls) (hBroker : s'.broker = s.broker)
    (hHistory : s'.history = s.history) (hPhase : Accounted P E clients b₀ s i phase)
    (hListening : s'.pipe = .listening → IsListening s'.server)
    (hOthers : ∀ c' j, j ≠ i → s'.pipe = .connected c' → c'.owner = some j →
      s'.server = s.server ∧ s.pipe = .connected c')
    (hOwn : ∀ c', s'.pipe = .connected c' → c'.owner = some i →
      c'.client = (clients i).pipe ∧ Serving P E clients b₀ s' i c' s'.server) :
    Keeps P E clients b₀ s' := by
  have hServed : ∀ j, s'.served j = s.served j := fun j => by rw [World.served, hHistory, World.served]
  have hSame : ∀ j phase, Accounted P E clients b₀ s j phase → Accounted P E clients b₀ s' j phase := by
    intro j phase hAccounted
    cases phase with
    | idle | opened => exact (hServed j).trans hAccounted
    | written => trivial
    | answered reply =>
        show Answered P E clients b₀ s'.history j reply
        rwa [hHistory]
    | returned reply =>
        cases reply with
        | none => trivial
        | some reply =>
            show Answered P E clients b₀ s'.history j reply
            rwa [hHistory]
  have hOther : ∀ j, j ≠ i → s'.calls j = s.calls j := fun j hj => by
    rw [hCalls, World.setCall_of_ne hj]
  refine ⟨?_, hListening, fun j => ?_, fun j => ?_, fun c' j hPipe hOwner => ?_,
    fun c' j hPipe hOwner => ?_⟩
  · rw [hBroker, h.broker, World.events, World.events, hHistory]
  · rw [hServed]
    exact h.once j
  · by_cases hj : j = i
    · rw [hj, hCalls, World.setCall_self]
      exact hSame i phase hPhase
    · rw [hOther j hj]
      exact hSame j _ (h.calls j)
  · by_cases hj : j = i
    · subst hj
      exact (hOwn c' hPipe hOwner).1
    · exact h.client c' j (hOthers c' j hj hPipe hOwner).2 hOwner
  · by_cases hj : j = i
    · subst hj
      exact (hOwn c' hPipe hOwner).2
    · obtain ⟨hServer, hBefore⟩ := hOthers c' j hj hPipe hOwner
      rw [hServer]
      refine (h.serving c' j hBefore hOwner).congr (hOther j hj) (hServed j) fun hAnswered => ?_
      rwa [hHistory]

/-- A step in which the call `i` uses its own connection. -/
theorem of_own {s s' : World} (h : Keeps P E clients b₀ s) {i : Nat} (phase : CallPhase)
    (hCalls : s'.calls = (s.setCall i phase).calls) (hBroker : s'.broker = s.broker)
    (hHistory : s'.history = s.history) (hPhase : Accounted P E clients b₀ s i phase)
    {c c' : Connection} (hPipe : s.pipe = .connected c) (hOwner : c.owner = some i)
    (hPipe' : s'.pipe = .connected c') (hOwner' : c'.owner = some i) (hSame : c'.client = c.client)
    (hServing : Serving P E clients b₀ s' i c' s'.server) : Keeps P E clients b₀ s' := by
  refine h.of_call phase hCalls hBroker hHistory hPhase
    (fun hIdle => Instance.noConfusion (hPipe'.symm.trans hIdle)) (fun d j hj hd hOther => ?_)
    fun d hd _ => ?_
  · obtain rfl : c' = d := by simpa [hPipe'] using hd
    exact absurd (Option.some.inj (hOther.symm.trans hOwner')) hj
  · obtain rfl : c' = d := by simpa [hPipe'] using hd
    exact ⟨hSame.trans (h.client c i hPipe hOwner), hServing⟩

/-- A step in which the call `i` closes its handle. -/
theorem of_close {s s' : World} (h : Keeps P E clients b₀ s) {i : Nat} (phase : CallPhase)
    (hCalls : s'.calls = (s.setCall i phase).calls) (hBroker : s'.broker = s.broker)
    (hHistory : s'.history = s.history) (hPhase : Accounted P E clients b₀ s i phase)
    (hServer : s'.server = s.server) (hPipe : s'.pipe = s.pipe.close i)
    (hServing : ∀ c, s.pipe = .connected c → c.owner = some i →
      Serving P E clients b₀ s' i { c with closed := true } s.server) : Keeps P E clients b₀ s' := by
  have hListening : s'.pipe = .listening → IsListening s'.server := fun hIdle => by
    rw [hServer]
    refine h.listening ?_
    cases hBefore : s.pipe with
    | missing | disconnected | connected _ =>
        rw [hPipe, hBefore] at hIdle
        cases hIdle
    | listening => rfl
  cases hBefore : s.pipe with
  | missing | disconnected | listening =>
      rw [hBefore] at hPipe
      refine h.of_call phase hCalls hBroker hHistory hPhase hListening (fun c' _ _ hc' => ?_)
          fun c' hc' => ?_ <;>
        exact Instance.noConfusion (hPipe.symm.trans hc')
  | connected c =>
      rw [hBefore, Instance.close] at hPipe
      by_cases hOwner : c.owner = some i
      · rw [if_pos hOwner] at hPipe
        exact h.of_own phase hCalls hBroker hHistory hPhase hBefore hOwner hPipe hOwner rfl
          (hServer ▸ hServing c hBefore hOwner)
      · rw [if_neg hOwner] at hPipe
        refine h.of_call phase hCalls hBroker hHistory hPhase hListening (fun c' j _ hc' _ => ?_)
          fun c' hc' hOwn => ?_
        · exact ⟨hServer, hBefore.trans (hPipe.symm.trans hc')⟩
        · obtain rfl : c = c' := by simpa [hPipe] using hc'
          exact absurd hOwn hOwner

/-- The connection of a call that has written nothing yet. -/
theorem of_opened {s : World} (h : Keeps P E clients b₀ s) {i : Nat} (hCall : s.calls i = .opened)
    {c : Connection} (hPipe : s.pipe = .connected c) (hOwner : c.owner = some i) :
    s.served i = [] ∧ (IsFresh s.server ∧ c.toServer = [] ∧ c.toClient = [] ∨
      s.server = .disconnecting) := by
  have hNone := h.calls i
  rw [hCall] at hNone
  refine ⟨hNone, ?_⟩
  have hServing := h.serving c i hPipe hOwner
  generalize s.server = server at hServing
  cases hServing with
  | opened hFresh _ _ hServer hClient => exact .inl ⟨hFresh, hServer, hClient⟩
  | disconnecting _ _ => exact .inr rfl
  | left _ hPhase | waiting hPhase | answered hPhase | acknowledged hPhase | abandoned hPhase =>
      rw [hCall] at hPhase
      cases hPhase
  | asked _ hPhase | processing hPhase | writing hPhase =>
      rw [hCall] at hPhase
      rcases hPhase with hPhase | hPhase <;> cases hPhase

/-- A reply can be read when it was written, and it is the answer. -/
theorem of_reply {s : World} (h : Keeps P E clients b₀ s) {i : Nat} (hCall : s.calls i = .written)
    {c : Connection} (hPipe : s.pipe = .connected c) (hOwner : c.owner = some i) {reply : Bytes}
    {rest : List Bytes} (hReply : c.toClient = reply :: rest) :
    Answered P E clients b₀ s.history i reply ∧ (s.server = .disconnecting ∨
      s.server = .awaiting ∧ c.toServer = [] ∧ rest = []) := by
  have hServing := h.serving c i hPipe hOwner
  refine ⟨hServing.replies reply (by rw [hReply]; exact List.mem_cons_self), ?_⟩
  generalize s.server = server at hServing
  cases hServing with
  | disconnecting _ _ => exact .inl rfl
  | waiting _ _ hServer hClient =>
      rw [hClient] at hReply
      cases hReply
      exact .inr ⟨rfl, hServer, rfl⟩
  | answered hPhase | acknowledged hPhase | abandoned hPhase =>
      rw [hCall] at hPhase
      cases hPhase
  | opened _ _ _ _ hNone | asked _ _ _ _ _ hNone | left _ _ _ _ hNone | processing _ _ _ _ hNone
  | writing _ _ _ hNone =>
      rw [hNone] at hReply
      cases hReply

/-- The connection of a call that has its reply. -/
theorem of_answered {s : World} (h : Keeps P E clients b₀ s) {i : Nat} {reply : Bytes}
    (hCall : s.calls i = .answered reply) {c : Connection} (hPipe : s.pipe = .connected c)
    (hOwner : c.owner = some i) :
    s.server = .disconnecting ∨ s.server = .awaiting ∧ c.toClient = [] := by
  have hServing := h.serving c i hPipe hOwner
  generalize s.server = server at hServing
  cases hServing with
  | disconnecting _ _ => exact .inl rfl
  | answered _ _ _ hClient => exact .inr ⟨rfl, hClient⟩
  | opened _ hPhase | left _ hPhase | waiting hPhase | acknowledged hPhase | abandoned hPhase =>
      rw [hCall] at hPhase
      cases hPhase
  | asked _ hPhase | processing hPhase | writing hPhase =>
      rw [hCall] at hPhase
      rcases hPhase with hPhase | hPhase <;> cases hPhase

/-- A call that fails leaves its message where it is. -/
theorem failed {s s' : World} {i : Nat} {c : Connection} {server : ServerPhase}
    (hServing : Serving P E clients b₀ s i c server)
    (hCall : s.calls i = .opened ∨ s.calls i = .written) (hCalls : s'.calls i = .returned none)
    (hHistory : s'.history = s.history) :
    Serving P E clients b₀ s' i { c with closed := true } server := by
  have hServed : s'.served i = s.served i := by rw [World.served, hHistory, World.served]
  cases hServing with
  | opened hFresh _ hNone hServer hClient =>
      exact .left hFresh hCalls (hServed.trans hNone) hServer hClient
  | asked hFresh _ hNone hSends hServer hClient =>
      exact .asked hFresh (.inr hCalls) (hServed.trans hNone) hSends hServer hClient
  | left hFresh _ hNone hServer hClient =>
      exact .left hFresh hCalls (hServed.trans hNone) hServer hClient
  | processing _ hNone hSends hServer hClient =>
      exact .processing (.inr hCalls) (hServed.trans hNone) hSends hServer hClient
  | writing _ hAnswered hServer hClient =>
      exact .writing (.inr hCalls) (hHistory ▸ hAnswered) hServer hClient
  | @waiting response _ hAnswered hServer hClient =>
      -- the reply stays in the pipe unread
      refine .abandoned hCalls hServer fun reply hReply => ?_
      have hOnly : reply = response := by simpa [hClient] using hReply
      rw [hHistory, hOnly]
      exact hAnswered
  | answered hPhase | acknowledged hPhase =>
      rw [hPhase] at hCall
      rcases hCall with hCall | hCall <;> cases hCall
  | abandoned _ hServer hReplies =>
      exact .abandoned hCalls hServer fun reply hReply => hHistory ▸ hReplies reply hReply
  | disconnecting _ hReplies =>
      exact .disconnecting (by simp [hCalls]) fun reply hReply => hHistory ▸ hReplies reply hReply

/-- The connection of a call that has written its message, whether or not its deadline came. -/
theorem wrote {s s' : World} (h : Keeps P E clients b₀ s) {i : Nat} (hCall : s.calls i = .opened)
    {c c' : Connection} (hPipe : s.pipe = .connected c) (hOwner : c.owner = some i) {message : Bytes}
    (hSends : Sends P clients i message)
    (hCalls : s'.calls i = .written ∨ s'.calls i = .returned none)
    (hHistory : s'.history = s.history) (hWritten : c'.toServer = c.toServer ++ [message])
    (hSame : c'.toClient = c.toClient) : Serving P E clients b₀ s' i c' s.server := by
  have hServed : s'.served i = s.served i := by rw [World.served, hHistory, World.served]
  obtain ⟨hNone, ⟨hFresh, hServer, hClient⟩ | hServer⟩ := h.of_opened hCall hPipe hOwner
  · refine .asked hFresh hCalls (hServed.trans hNone) hSends ?_ (hSame.trans hClient)
    rw [hWritten, hServer, List.nil_append]
  · -- `Run` has given this connection up
    have hReplies := (h.serving c i hPipe hOwner).replies
    rw [hServer]
    refine .disconnecting ?_ fun reply hReply => hHistory ▸ hReplies reply (hSame ▸ hReply)
    rcases hCalls with hCalls | hCalls <;> simp [hCalls]

/-- The connection of a call that is over with its reply. -/
theorem concluded {s s' : World} (h : Keeps P E clients b₀ s) {i : Nat} {reply : Bytes}
    (hCall : s.calls i = .answered reply) {c c' : Connection} (hPipe : s.pipe = .connected c)
    (hOwner : c.owner = some i) (hCalls : s'.calls i = .returned (some reply))
    (hHistory : s'.history = s.history) (hSame : c'.toClient = c.toClient) :
    Serving P E clients b₀ s' i c' s.server := by
  have hAnswered := h.calls i
  rw [hCall] at hAnswered
  have hReplies := (h.serving c i hPipe hOwner).replies
  rcases h.of_answered hCall hPipe hOwner with hServer | ⟨hServer, hClient⟩
  · rw [hServer]
    exact .disconnecting (by simp [hCalls]) fun r hr => hHistory ▸ hReplies r (hSame ▸ hr)
  · rw [hServer]
    exact .acknowledged hCalls (hHistory ▸ hAnswered) (hSame.trans hClient)

theorem call {s s' : World} (h : Keeps P E clients b₀ s) {i : Nat}
    (hStep : CallStep P clients i s s') : Keeps P E clients b₀ s' := by
  cases hStep with
  | unavailable hCall =>
      refine h.of_call (.returned none) rfl rfl rfl trivial h.listening (fun _ _ _ hPipe _ => ⟨rfl, hPipe⟩)
        fun c' hPipe hOwner => ?_
      exact absurd hCall (h.serving c' i hPipe hOwner).begun
  | opens hCall hPipe =>
      have hNone := h.calls i
      rw [hCall] at hNone
      have hListening := h.listening hPipe
      refine h.of_call .opened rfl rfl rfl hNone nofun ?_ ?_
      · rintro c' j hj ⟨⟩ hOwner
        -- the instance was free, so no other call was connected
        exact absurd (Option.some.inj hOwner.symm) hj
      · rintro c' ⟨⟩ _
        refine ⟨rfl, .opened ?_ (World.setCall_self i .opened s) hNone rfl rfl⟩
        show IsFresh s.server
        generalize s.server = server at hListening
        cases server <;> trivial
  | @writes c message hCall hSends hPipe hOwner =>
      refine h.of_own .written rfl rfl rfl trivial hPipe hOwner rfl hOwner rfl ?_
      have hWritten := World.setCall_self i .written s
      show Serving P E clients b₀ _ i _ s.server
      exact h.wrote hCall hPipe hOwner hSends (.inl hWritten) rfl rfl rfl
  | @writesLate c message hCall hSends hPipe hOwner =>
      refine h.of_own (.returned none) rfl rfl rfl trivial hPipe hOwner rfl hOwner rfl ?_
      have hReturned := World.setCall_self i (.returned none) s
      show Serving P E clients b₀ _ i _ s.server
      exact h.wrote hCall hPipe hOwner hSends (.inr hReturned) rfl rfl rfl
  | @reads c reply rest hCall hPipe hOwner hReply =>
      obtain ⟨hAnswered, hServer⟩ := h.of_reply hCall hPipe hOwner hReply
      refine h.of_own (.answered reply) rfl rfl rfl hAnswered hPipe hOwner rfl hOwner rfl ?_
      have hPhase := World.setCall_self i (.answered reply) s
      have hReplies := (h.serving c i hPipe hOwner).replies
      show Serving P E clients b₀ _ i _ s.server
      -- `Run` waits for the acknowledgement, or has given up waiting
      rcases hServer with hServer | ⟨hServer, hEmpty, rfl⟩
      · rw [hServer]
        exact .disconnecting (by simp) fun r hr => hReplies r (by rw [hReply]; exact List.mem_cons_of_mem _ hr)
      · rw [hServer]
        exact .answered hPhase hAnswered hEmpty rfl
  | fails hCall =>
      refine h.of_close (.returned none) rfl rfl rfl trivial rfl rfl fun c hPipe hOwner => ?_
      exact failed (h.serving c i hPipe hOwner) hCall (World.setCall_self i (.returned none) s) rfl
  | @acknowledges c reply hCall hPipe hOwner =>
      have hAnswered := h.calls i
      rw [hCall] at hAnswered
      refine h.of_own (.returned (some reply)) rfl rfl rfl hAnswered hPipe hOwner rfl hOwner rfl ?_
      have hPhase := World.setCall_self i (.returned (some reply)) s
      show Serving P E clients b₀ _ i _ s.server
      exact h.concluded hCall hPipe hOwner hPhase rfl rfl
  | @leaves reply hCall =>
      have hAnswered := h.calls i
      rw [hCall] at hAnswered
      refine h.of_close (.returned (some reply)) rfl rfl rfl hAnswered rfl rfl fun c hPipe hOwner => ?_
      have hPhase := World.setCall_self i (.returned (some reply)) s
      show Serving P E clients b₀ _ i _ s.server
      exact h.concluded hCall hPipe hOwner hPhase rfl rfl

theorem other {s s' : World} (h : Keeps P E clients b₀ s) (hStep : OtherStep P E s s') :
    Keeps P E clients b₀ s' := by
  have hNobody : ∀ i, (none : Option Nat) ≠ some i := fun i => Option.some_ne_none i |>.symm
  cases hStep with
  | starts _ _ =>
      exact h.of_happens (fun i hOwner => absurd hOwner (hNobody i)) rfl rfl rfl (fun _ => trivial)
        nofun nofun
  | killed => exact h.of_pipe rfl rfl rfl nofun nofun nofun
  | startFails _ | tampers _ =>
      refine h.of_happens (fun i hOwner => absurd hOwner (hNobody i)) rfl rfl rfl h.listening
        (fun _ hSame => hSame) fun c i hPipe hOwner => ?_
      refine (h.serving c i hPipe hOwner).congr rfl ?_ fun hAnswered => hAnswered.later _
      exact World.happen_served_of_ne P E (hNobody i) _ s
  | opens client hPipe =>
      refine h.of_pipe rfl rfl rfl nofun ?_ ?_ <;> rintro c' i ⟨⟩ ⟨⟩
  | uses hPipe hOwner _ hOwner' hSame =>
      refine h.of_pipe rfl rfl rfl nofun ?_ ?_ <;> rintro c i ⟨⟩ hOwn <;>
        exact absurd (hOwner'.symm.trans hOwn) (hNobody i)

theorem step {s s' : World} (h : Keeps P E clients b₀ s) (hStep : Step P E clients s s') :
    Keeps P E clients b₀ s' := by
  cases hStep with
  | server hStep => exact h.server hStep
  | call i hStep => exact h.call hStep
  | other hStep => exact h.other hStep

end Keeps

/-- Before the first Broker process. -/
def World.start (b₀ : Broker) : World := { broker := b₀ }

theorem keeps_start : Keeps P E clients b₀ (World.start b₀) where
  broker := rfl
  listening := nofun
  once _ := .inl rfl
  calls _ := rfl
  client := nofun
  serving := nofun

theorem keeps_of_steps {s : World} (h : Steps P E clients (World.start b₀) s) :
    Keeps P E clients b₀ s := by
  induction h with
  | refl => exact keeps_start
  | tail _ hStep ih => exact ih.step hStep

end BrokerPipe
end WindowsFidoLogon
