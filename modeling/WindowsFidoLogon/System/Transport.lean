import WindowsFidoLogon.System.PipeReplies
import WindowsFidoLogon.System.SignIn

/-!
# A tile on the pipe

A tile makes its calls one after the other, each as a `Call` of its own among all the
others.  What it sees is what the sequential account of `SignIn` allows: the pipe adds
nothing to it, and loses nothing that a failed call does not report.
-/

namespace WindowsFidoLogon
namespace BrokerPipe

open Text BrokerService BrokerClient SignIn

/-- The tile that `pipe` identifies, which began at the world `s₀`, and the world it is in
now, with what the tile has done, the latest first. -/
inductive Together (P : Platform) (E : Environment) (clients : Nat → Client) (pipe : PipeClient)
    (s₀ : World) : World → List Act → Prop
  | start : Together P E clients pipe s₀ s₀ []
  | moves {s s' : World} {acts : List Act} : Steps P E clients s s' →
      Together P E clients pipe s₀ s acts → Together P E clients pipe s₀ s' acts
  | own {s : World} {acts : List Act} {act : Act} : IsOwn act →
      Together P E clients pipe s₀ s acts → Together P E clients pipe s₀ s (act :: acts)
  | begun {s s' : World} {acts : List Act} {i : Nat} {sid : WString} {reply : Option Bytes} :
      (clients i).pipe = pipe → (clients i).call = .beginAuthentication sid → s.calls i = .idle →
      Steps P E clients s s' → s'.calls i = .returned reply →
      Together P E clients pipe s₀ s acts →
      Together P E clients pipe s₀ s'
        (.begun sid (reply.bind fun r => challengeIn ((clients i).call.receive P r)) :: acts)
  | finished {s s' : World} {acts : List Act} {i : Nat} {id : Bytes} {assertion : FIDOSignResponse}
      {reply : Option Bytes} :
      (clients i).pipe = pipe → (clients i).call = .finishAuthentication id assertion →
      s.calls i = .idle → Steps P E clients s s' → s'.calls i = .returned reply →
      Together P E clients pipe s₀ s acts →
      Together P E clients pipe s₀ s'
        (.finished id (reply.any fun r => isAccepted ((clients i).call.receive P r)) :: acts)
  | policyChecked {s : World} {acts : List Act} {sid : WString} {enforced : Bool} {m : Machine} :
      m.registry = s.broker.machine.registry →
      (LocalCredentialStore.isSidEnforced E sid m).1 = .returned enforced →
      Together P E clients pipe s₀ s acts →
      Together P E clients pipe s₀ s (.policyChecked sid enforced :: acts)

variable {P : Platform} {E : Environment} {clients : Nat → Client} {pipe : PipeClient} {b₀ : Broker}

theorem interleaved_others {before es : List Event} {acts : List Act}
    (h : Interleaved P E pipe b₀ before es acts) (tail : List Event) :
    Interleaved P E pipe b₀ before (es ++ tail) acts := by
  induction tail using List.reverseRecOn with
  | nil => rwa [List.append_nil]
  | append_singleton tail e ih =>
      rw [← List.append_assoc]
      exact ih.other e

theorem events_of_steps {s s' : World} (h : Steps P E clients s s') :
    ∃ tail, s'.events = s.events ++ tail := by
  obtain ⟨tail, hTail⟩ := history_of_steps h
  exact ⟨tail.map Prod.snd, by rw [World.events, hTail, List.map_append, World.events]⟩

theorem Together.reached {s₀ s : World} {acts : List Act}
    (hStart : Steps P E clients (World.start b₀) s₀) (h : Together P E clients pipe s₀ s acts) :
    Steps P E clients (World.start b₀) s := by
  induction h with
  | start => exact hStart
  | own _ _ ih | policyChecked _ _ _ ih => exact ih
  | moves hSteps _ ih | begun _ _ _ hSteps _ _ ih | finished _ _ _ hSteps _ _ ih =>
      exact ih.trans hSteps

/-- What a call returned with tells what the Broker was sent meanwhile. -/
theorem answers_between {s s' : World} (hStart : Steps P E clients (World.start b₀) s)
    (hSteps : Steps P E clients s s') {i : Nat} (hPipe : (clients i).pipe = pipe)
    (hIdle : s.calls i = .idle) {reply : Bytes} (hReply : s'.calls i = .returned (some reply)) :
    ∃ mid post message, s'.events = s.events ++ mid ++ [.request pipe message] ++ post ∧
      Answers P E pipe b₀ (s.events ++ mid) (clients i).call message
        ((clients i).call.receive P reply) := by
  obtain ⟨mid, post, message, output, ok, hHistory, hSends, hServed, rfl⟩ :=
    answered_between hStart hSteps hIdle hReply
  rw [hPipe] at hHistory hServed
  refine ⟨mid.map Prod.snd, post.map Prod.snd, message, ?_, hSends, output, ok, hServed, rfl⟩
  simp [World.events, hHistory]

/-- Each call of the tile is one event of the Broker, or none that the tile learns of. -/
theorem Together.interleaved {s₀ s : World} {acts : List Act}
    (hStart : Steps P E clients (World.start b₀) s₀) (h : Together P E clients pipe s₀ s acts) :
    Interleaved P E pipe b₀ s₀.events s.events acts := by
  induction h with
  | start => exact .start
  | @moves s s' acts hSteps _ ih =>
      obtain ⟨tail, hTail⟩ := events_of_steps hSteps
      rw [hTail]
      exact interleaved_others ih _
  | own hOwn _ ih => exact .act (.own hOwn) ih
  | @begun s s' acts i sid reply hPipe hCall hIdle hSteps hReply hRest ih =>
      -- a call without a reply may have been served or not; the tile does not learn it
      cases reply with
      | none =>
          obtain ⟨tail, hTail⟩ := events_of_steps hSteps
          rw [hTail]
          exact .act (.notBegun sid) (interleaved_others ih _)
      | some reply =>
          obtain ⟨mid, post, message, hEvents, hAnswers⟩ :=
            answers_between (hRest.reached hStart) hSteps hPipe hIdle hReply
          rw [hCall] at hAnswers
          rw [hEvents, Option.bind_some, hCall]
          exact interleaved_others (.act (.begun hAnswers) (interleaved_others ih mid)) post
  | @finished s s' acts i id assertion reply hPipe hCall hIdle hSteps hReply hRest ih =>
      cases reply with
      | none =>
          obtain ⟨tail, hTail⟩ := events_of_steps hSteps
          rw [hTail]
          exact .act (.notFinished id) (interleaved_others ih _)
      | some reply =>
          obtain ⟨mid, post, message, hEvents, hAnswers⟩ :=
            answers_between (hRest.reached hStart) hSteps hPipe hIdle hReply
          rw [hCall] at hAnswers
          rw [hEvents, Option.any_some, hCall]
          exact interleaved_others (.act (.finished hAnswers) (interleaved_others ih mid)) post
  | @policyChecked s acts sid enforced m hRegistry hPolicy hRest ih =>
      rw [(keeps_of_steps (hRest.reached hStart)).broker] at hRegistry
      exact .act (.policyChecked hRegistry hPolicy) ih

/-- Whatever other clients do with the pipe and whichever deadlines pass, a tile that makes
its calls through it sees what it can see of a Broker that is asked directly, one request
after the other. -/
theorem together_interleaved {s₀ s : World} {acts : List Act}
    (hStart : Steps P E clients (World.start b₀) s₀) (h : Together P E clients pipe s₀ s acts) :
    Interleaved P E pipe b₀ s₀.events s.events acts :=
  h.interleaved hStart

/-- What leaves a tile on the pipe has the Broker behind it. -/
theorem Together.backed (hParses : P.ParsesDumps) (hPrints : P.PrintsCompactly)
    (hObjects : P.ParsesObjects) {caller : Caller} (hCaller : getCaller pipe = .ok caller)
    (hClock : Monotone E.clock) (hOnce : DrawsOnce E) (h₀ : b₀.sessions = [])
    {db : LocalAccount.AccountDatabase} (hNames : LocalAccount.AccountNames db) {t : Tile}
    (hFresh : Tile.Fresh t) {cs : List (Callback × Surroundings)}
    (hFixed : ∀ e ∈ cs, e.2.accounts = db) {s₀ s : World}
    (hStart : Steps P E clients (World.start b₀) s₀)
    (h : Together P E clients pipe s₀ s (History.run (Tile.step P) t cs).acts) {S : Surroundings}
    {outputs : Bool} {blob : Serialization}
    (hEmit : ((History.run (Tile.step P) t cs).getSerialization S outputs).1.serialization =
      some blob) :
    ∃ name account, LocalAccount.resolveLocalAccount db name = .ok account ∧
      blob.identity = (account.computerName, account.username) ∧
      Backed P E pipe b₀ s₀.events s.events account.sidString :=
  backed_of_emitted hParses hPrints hObjects hCaller hClock hOnce h₀ hNames hFresh hFixed
    (h.interleaved hStart) hEmit

section Example

open Reference

/-- The tile of `alice` gets its challenge through the pipe. -/
theorem together_interleaved_example :
    Interleaved (platform {}) calm alicePipe keyBroker started.events returnedFirst.events
      [.begun aliceSid ((some (pipeResponse startedText)).bind fun r =>
        challengeIn ((askers 0).call.receive (platform {}) r))] := by
  have hReturned : returnedFirst.calls 0 = .returned (some (pipeResponse startedText)) := by
    simp [returnedFirst, World.returns]
  have hTogether : Together (platform {}) calm askers alicePipe started returnedFirst
      [.begun aliceSid ((some (pipeResponse startedText)).bind fun r =>
        challengeIn ((askers 0).call.receive (platform {}) r))] :=
    .begun rfl rfl rfl steps_returnedFirst hReturned .start
  exact together_interleaved steps_started hTogether

end Example

end BrokerPipe
end WindowsFidoLogon
