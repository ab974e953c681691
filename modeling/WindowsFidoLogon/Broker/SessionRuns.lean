import WindowsFidoLogon.Broker.Replies
import WindowsFidoLogon.Broker.Sessions

/-!
# The session table over whole runs

A request makes at most one call on the session table (`handle_uses`), so a run of the
Broker is a run of `PutSession` and `TakeSession` with other work in between, until the
process ends and the table with it.  What was proved of the two calls is carried over to
runs of requests, restarts and outside changes of the vault file here.

`session_available` is the result a client relies on: a session that was handed out can
be taken by its caller until its time is up, unless another request takes it first or the
Broker ends.
-/

namespace WindowsFidoLogon
namespace BrokerService

open Program Text LocalAccount LocalCredentialStore Environment

variable {P : Platform} {E : Environment}

/-! ## One call at most -/

/-- Time passes, and the session table is left alone. -/
def Steady (b b' : Broker) : Prop :=
  Later b.machine b'.machine ∧ b'.sessions = b.sessions

instance : Std.Refl Steady := ⟨fun _ => ⟨Std.Refl.refl _, rfl⟩⟩

instance : IsTrans Broker Steady :=
  ⟨fun _ _ _ h h' => ⟨h.1.trans h'.1, h'.2.trans h.2⟩⟩

/-- From `b` to `b'` there was no call on the table, or one that `may` allows. -/
inductive Uses (E : Environment) (may : TableCall → Prop) (b b' : Broker) : Prop
  | untouched : Steady b b' → Uses E may b b'
  | called {c : Broker} {call : TableCall} : Steady b c → may call → Steady (call.step E c) b' →
      Uses E may b b'

namespace Uses

variable {may : TableCall → Prop} {a b c : Broker}

theorem after (hFirst : Steady a b) (h : Uses E may b c) : Uses E may a c := by
  cases h with
  | untouched hRest => exact .untouched (Trans.trans hFirst hRest)
  | called hBefore hMay hAfter => exact .called (Trans.trans hFirst hBefore) hMay hAfter

theorem before (h : Uses E may a b) (hLast : Steady b c) : Uses E may a c := by
  cases h with
  | untouched hFirst => exact .untouched (Trans.trans hFirst hLast)
  | called hBefore hMay hAfter => exact .called hBefore hMay (Trans.trans hAfter hLast)

theorem machine (h : Uses E may a b) : a.machine.tick ≤ b.machine.tick := by
  cases h with
  | untouched h => exact h.1.tick_le
  | called hBefore _ hAfter =>
      exact (hBefore.1.tick_le.trans (tick_le_step _ _)).trans hAfter.1.tick_le

end Uses

section Programs

variable {may : TableCall → Prop} {α β : Type}

theorem steady_onMachine {x : Call α} (h : Moves Later x) : Moves Steady (onMachine x) :=
  fun b => ⟨h b.machine, rfl⟩

theorem moves_steady_bind {x : BrokerCall α} {f : α → BrokerCall β} (hx : Moves Steady x)
    (hf : ∀ a, Moves (Uses E may) (f a)) : Moves (Uses E may) (x >>= f) := by
  intro b
  have hFirst := hx b
  rw [bind_apply]
  rcases h : x b with ⟨a | e | _, c⟩ <;> rw [h] at hFirst
  · exact (hf a c).after hFirst
  · exact .untouched hFirst
  · exact .untouched hFirst

theorem moves_bind_steady {x : BrokerCall α} {f : α → BrokerCall β} (hx : Moves (Uses E may) x)
    (hf : ∀ a, Moves Steady (f a)) : Moves (Uses E may) (x >>= f) := by
  intro b
  have hFirst := hx b
  rw [bind_apply]
  rcases h : x b with ⟨a | e | _, c⟩ <;> rw [h] at hFirst
  · exact hFirst.before (hf a c)
  · exact hFirst
  · exact hFirst

theorem Uses.of_steady {x : BrokerCall α} (hx : Moves Steady x) : Moves (Uses E may) x :=
  hx.mono fun _ _ => .untouched

end Programs

/-! ## The operations -/

/-- The calls that a request may make. -/
inductive Permits (P : Platform) (E : Environment) (b : Broker) (caller : Caller) (request : Json) :
    TableCall → Prop
  | put (session : Session) : Permits P E b caller request (.put session)
  | take {op id : Bytes} {kind : SessionKind} {m n : Machine} {v : Vault} :
      request.valueOr Json.getString (text "op") [] = .ok op →
      (op = text "finish_auth" ∨ op = text "commit_registration" ∨ op = text "finish_remove") →
      stringField request (text "sessionId") = .ok id →
      refreshLocalAccounts P E b.machine = (.returned (.ok ()), m) →
      loadOrCreate P E m = (.returned (.ok v), n) →
      Permits P E b caller request (.take id caller kind)

section Operations

variable {b₀ : Broker} {caller : Caller} {request : Json} {v : Vault}

theorem steady_of_quiet {α : Type} {x : Call α} (h : Moves Quiet x) :
    Moves Steady (onMachine x) :=
  steady_onMachine (h.mono fun _ _ => Quiet.later)

theorem steady_findAccount (sid : WString) : Moves Steady (onMachine (findAccount P E sid)) :=
  steady_onMachine (transacts_later.findAccount sid)

theorem uses_putSession (session : Session) :
    Moves (Uses E (Permits P E b₀ caller request)) (putSession E session) :=
  fun b => .called (Std.Refl.refl b) (.put session) (Std.Refl.refl _)

theorem steady_status : Moves Steady (status P E caller request) := by
  refine .bind (.ofExcept _) fun sid => ?_
  split_ifs
  · exact .raise _
  · refine .bind (steady_findAccount sid) fun account => ?_
    cases account <;> exact .pure _

theorem uses_challengeAccount (sid : WString) (account : AccountRecord) :
    Moves (Uses E (Permits P E b₀ caller request)) (challengeAccount E caller sid v account) :=
  moves_steady_bind (steady_of_quiet (quiet_newSession _ _ _ _)) fun session =>
    moves_bind_steady (uses_putSession session) fun _ => .pure _

theorem uses_beginAuth :
    Moves (Uses E (Permits P E b₀ caller request)) (beginAuth P E caller request v) := by
  refine moves_steady_bind (.ofExcept _) fun sid => ?_
  split_ifs
  · exact .of_steady (.raise _)
  · refine moves_steady_bind (steady_findAccount sid) fun account => ?_
    cases account.filter (·.enforced) with
    | none =>
        refine .of_steady (.bind (steady_of_quiet (quiet_isSidEnforced sid)) fun listed => ?_)
        cases listed
        · exact .pure _
        · exact .raise _
    | some account =>
        dsimp only
        split_ifs
        · exact .of_steady (.raise _)
        · exact uses_challengeAccount sid account

theorem uses_beginTest :
    Moves (Uses E (Permits P E b₀ caller request)) (beginTest P E caller request v) := by
  refine moves_steady_bind (.ofExcept _) fun sid => ?_
  split_ifs
  · exact .of_steady (.raise _)
  · refine moves_steady_bind (steady_findAccount sid) fun account => ?_
    cases account with
    | none => exact .of_steady (.raise _)
    | some account =>
        dsimp only
        split_ifs
        · exact .of_steady (.raise _)
        · exact uses_challengeAccount sid account

/-- What the operations that ask for a password do first. -/
theorem uses_afterLogon {α : Type} {denied unresolved : Bytes}
    {f : WString → WString → Option AccountRecord → BrokerCall α}
    (hf : ∀ sid name account, Moves (Uses E (Permits P E b₀ caller request)) (f sid name account)) :
    Moves (Uses E (Permits P E b₀ caller request)) (do
      let sid ← Program.ofExcept (wideField P request (text "sid"))
      let username ← Program.ofExcept (wideField P request (text "username"))
      let password ← Program.ofExcept (extractPassword P request)
      let name ← onMachine
        (requireLocalPassword E denied unresolved caller sid username password)
      let account ← onMachine (findAccount P E sid)
      f sid name account) :=
  moves_steady_bind (.ofExcept _) fun sid =>
    moves_steady_bind (.ofExcept _) fun username =>
      moves_steady_bind (.ofExcept _) fun password =>
        moves_steady_bind
          (steady_of_quiet (quiet_requireLocalPassword denied unresolved caller sid username password))
          fun name => moves_steady_bind (steady_findAccount sid) fun account => hf sid name account

theorem uses_beginRegistration :
    Moves (Uses E (Permits P E b₀ caller request)) (beginRegistration P E caller request v) := by
  refine uses_afterLogon fun sid name account => ?_
  split_ifs
  · exact .of_steady (.raise _)
  · exact moves_steady_bind (.ofExcept _) fun label =>
      moves_steady_bind (steady_of_quiet (quiet_newSession _ _ _ _)) fun blank =>
        moves_bind_steady (uses_putSession _) fun id =>
          .bind (steady_of_quiet (quiet_createRegistrationChallenge _ _)) fun _ => .pure _

theorem uses_beginRemove :
    Moves (Uses E (Permits P E b₀ caller request)) (beginRemove P E caller request v) :=
  uses_afterLogon fun _ _ _ =>
    moves_steady_bind (.ofExcept _) fun _ =>
      moves_steady_bind (steady_of_quiet (quiet_newSession _ _ _ _)) fun _ =>
        moves_bind_steady (uses_putSession _) fun _ => .pure _

theorem uses_removeWithPassword :
    Moves (Uses E (Permits P E b₀ caller request)) (removeWithPassword P E caller request) :=
  uses_afterLogon fun sid _ _ =>
    .of_steady <| .bind (.ofExcept _) fun removable =>
      .bind (steady_onMachine (transacts_later.removeCredential sid removable.2)) fun r => by
        cases r
        · exact .raise _
        · exact .pure _

theorem steady_setEnforcement : Moves Steady (setEnforcement P E caller request) := by
  unfold setEnforcement
  split_ifs
  · exact .raise _
  · refine .bind (.ofExcept _) fun sid => .bind (.ofExcept _) fun username =>
      .bind (.ofExcept _) fun password => .bind (steady_of_quiet (quiet_requireLocalPassword _ _ _ _ _ _))
        fun _ => .bind (.ofExcept _) fun enabled =>
          .bind (steady_of_quiet (quiet_requireNoFilterConflict enabled request)) fun _ =>
            .bind (steady_onMachine (transacts_later.setEnforced sid enabled)) fun r => ?_
    cases r
    · exact .raise _
    · exact .pure _

theorem uses_enterSession {may : TableCall → Prop} {kind : SessionKind}
    (hMay : ∀ id, stringField request (text "sessionId") = .ok id → may (.take id caller kind)) :
    Moves (Uses E may) (enterSession E request caller kind) := by
  unfold enterSession
  cases hId : stringField request (text "sessionId") with
  | error e => exact fun b => .untouched (Std.Refl.refl b)
  | ok id =>
      have hTake : Moves (Uses E may) (takeSession E id caller kind) :=
        fun b => .called (Std.Refl.refl b) (hMay id hId) (Std.Refl.refl _)
      rw [ofExcept_ok, pure_bind]
      exact moves_bind_steady hTake fun taken => .ofExcept taken

/-- The end of the operations that verify an assertion. -/
theorem steady_verified {α : Type} {session : Session} {rest : BrokerCall α}
    (hRest : Moves Steady rest) :
    Moves Steady (do
      let assertion ← Program.ofExcept (request.at_ (text "assertion"))
      let verified ← onMachine (verifySessionAssertion P E session assertion)
      Program.ofExcept verified
      rest) :=
  .bind (.ofExcept _) fun assertion =>
    .bind (steady_onMachine (transacts_verifySessionAssertion transacts_later session assertion))
      fun _ => .bind (.ofExcept _) fun _ => hRest

section Finishing

variable {may : TableCall → Prop}
  (hMay : ∀ id kind, stringField request (text "sessionId") = .ok id → may (.take id caller kind))
include hMay

theorem uses_finishAuth : Moves (Uses E may) (finishAuth P E caller request) :=
  moves_bind_steady (uses_enterSession fun id => hMay id _) fun _ => steady_verified (.pure _)

theorem uses_commitRegistration : Moves (Uses E may) (commitRegistration P E caller request) :=
  moves_bind_steady (uses_enterSession fun id => hMay id _) fun session =>
    .bind (.ofExcept _) fun _ => .bind (.ofExcept _) fun _ => .bind (.ofExcept _) fun registration =>
      .bind (steady_onMachine (transacts_storeRegistration transacts_later session registration))
        fun _ => .pure _

theorem uses_finishRemove : Moves (Uses E may) (finishRemove P E caller request) :=
  moves_bind_steady (uses_enterSession fun id => hMay id _) fun session =>
    steady_verified <|
      .bind (steady_onMachine (transacts_later.removeCredential _ _)) fun r => by
        cases r
        · exact .raise _
        · exact .pure _

end Finishing

end Operations

theorem dispatch_uses {caller : Caller} {request : Json} {op : Bytes} {b : Broker} {m : Machine}
    (hOp : request.valueOr Json.getString (text "op") [] = .ok op)
    (hRefresh : refreshLocalAccounts P E b.machine = (.returned (.ok ()), m)) :
    Uses E (Permits P E b caller request) (b.setMachine m)
      (dispatch P E caller request op (b.setMachine m)).2 := by
  unfold dispatch
  by_cases hStatus : op = text "status"
  · rw [if_pos hStatus]
    exact .untouched (steady_status _)
  rw [if_neg hStatus, bind_apply]
  have hSecond := transacts_later.load (P := P) (E := E) m
  unfold onMachine
  rw [zoom_apply, Broker.setMachine_machine]
  -- until the store is loaded the table is not touched
  rcases hLoad : loadOrCreate P E m with ⟨(e | v) | what | _, n⟩ <;> rw [hLoad] at hSecond
  · exact .untouched ⟨hSecond, rfl⟩
  · have hLoaded : Steady (b.setMachine m) (b.setMachine n) := ⟨hSecond, rfl⟩
    dsimp only
    split_ifs with h₁ h₂ h₃ h₄ h₅ h₆ h₇ h₈ h₉
    · exact (uses_beginAuth _).after hLoaded
    · exact (uses_finishAuth (fun id kind hId => .take hOp (.inl h₂) hId hRefresh hLoad) _).after
        hLoaded
    · exact (uses_beginTest _).after hLoaded
    · exact (uses_beginRegistration _).after hLoaded
    · exact (uses_commitRegistration
        (fun id kind hId => .take hOp (.inr (.inl h₅)) hId hRefresh hLoad) _).after hLoaded
    · exact (uses_beginRemove _).after hLoaded
    · exact (uses_removeWithPassword _).after hLoaded
    · exact (uses_finishRemove
        (fun id kind hId => .take hOp (.inr (.inr h₈)) hId hRefresh hLoad) _).after hLoaded
    · exact .untouched (Trans.trans hLoaded (steady_setEnforcement _))
    · exact .untouched hLoaded
  · exact .untouched ⟨hSecond, rfl⟩
  · exact .untouched ⟨hSecond, rfl⟩

/-- A request makes at most one call on the table, and takes a session only once the store
was refreshed and loaded. -/
theorem handle_uses (caller : Caller) (request : Json) (b : Broker) :
    Uses E (Permits P E b caller request) b (handle P E caller request b).2 := by
  have hFirst := transacts_later.refreshLocalAccounts (P := P) (E := E) b.machine
  rcases hRefresh : refreshLocalAccounts P E b.machine with ⟨(e | _) | what | _, m⟩ <;>
    rw [hRefresh] at hFirst
  · unfold handle
    rw [bind_returned (onMachine_returned hRefresh)]
    exact .untouched ⟨hFirst, rfl⟩
  · have hBefore : Steady b (b.setMachine m) := ⟨hFirst, rfl⟩
    cases hOp : request.valueOr Json.getString (text "op") [] with
    | error e =>
        unfold handle
        rw [bind_returned (onMachine_returned hRefresh)]
        dsimp only
        rw [hOp]
        exact .untouched hBefore
    | ok op =>
        rw [handle_of_refreshed hRefresh hOp]
        exact (dispatch_uses hOp hRefresh).after hBefore
  · have hThrew : onMachine (refreshLocalAccounts P E) b = (.threw what, b.setMachine m) := by
      unfold onMachine
      rw [zoom_apply, hRefresh]
    unfold handle
    rw [bind_threw hThrew]
    exact .untouched ⟨hFirst, rfl⟩
  · have hStopped : onMachine (refreshLocalAccounts P E) b = (.stopped, b.setMachine m) := by
      unfold onMachine
      rw [zoom_apply, hRefresh]
    unfold handle
    rw [bind_stopped hStopped]
    exact .untouched ⟨hFirst, rfl⟩

/-! ## One event -/

/-- The Broker process goes on after the event. -/
def Survives (P : Platform) (E : Environment) (b : Broker) : Event → Prop
  | .request pipe input => ((serve P E pipe input b).1).isSome = true
  | .restart => False
  | .tamper _ => True

/-- A process that ends takes the table with it. -/
theorem sessions_of_not_survives {b : Broker} {e : Event} (h : ¬ Survives P E b e) :
    (step P E b e).sessions = [] := by
  cases e with
  | restart => rfl
  | tamper content => exact absurd trivial h
  | request pipe input =>
      have hNone : (serve P E pipe input b).1 = none := Option.not_isSome_iff_eq_none.mp h
      show (serve P E pipe input b).2.sessions = []
      unfold serve at hNone ⊢
      rcases hRun : processRequest P E pipe input b with ⟨reply | what | _, b'⟩ <;> rw [hRun] at hNone
      · cases hNone
      · rfl
      · rfl

theorem step_refused {pipe : PipeClient} {input what : Bytes} {b : Broker}
    (hOpen : openRequest P pipe input = .error what)
    (h : Survives P E b (.request pipe input)) : (serve P E pipe input b).2 = b := by
  have hAnswer : answer P E pipe input b = (.threw what, b) := by
    unfold answer
    rw [hOpen]
    rfl
  have hSome : ((serve P E pipe input b).1).isSome = true := h
  unfold serve at hSome ⊢
  rw [processRequest_apply, hAnswer] at hSome ⊢
  dsimp only at hSome ⊢
  cases hPrinted : printed P (errorReply what) with
  | returned reply => rfl
  | threw e =>
      rw [hPrinted] at hSome
      cases hSome
  | stopped =>
      rw [hPrinted] at hSome
      cases hSome

/-- An event that does not end the process makes at most one call on the table, and takes
a session only as a request that finishes it. -/
theorem step_uses {b : Broker} {e : Event} (h : Survives P E b e) :
    Uses E (fun call => ∀ id caller kind, call = .take id caller kind → Takes P E b e id) b
      (step P E b e) := by
  cases e with
  | restart => exact absurd h (fun h => h)
  | tamper content => exact .untouched ⟨⟨le_refl _, List.suffix_refl _⟩, rfl⟩
  | request pipe input =>
      show Uses E _ b (serve P E pipe input b).2
      cases hOpen : openRequest P pipe input with
      | error what =>
          rw [step_refused hOpen h]
          exact .untouched (Std.Refl.refl b)
      | ok opened =>
          obtain ⟨caller, request⟩ := opened
          obtain ⟨⟨output, ok⟩, hServed⟩ := Option.isSome_iff_exists.mp h
          -- a process that goes on keeps the table that `Handle` left
          have hState : (handle P E caller request b).2 = (serve P E pipe input b).2 := by
            rcases handle_of_serve hOpen hServed with ⟨j, hHandle, -⟩ | ⟨what, hHandle, -⟩ <;>
              rw [hHandle]
          have hUses := handle_uses (P := P) (E := E) caller request b
          rw [hState] at hUses
          cases hUses with
          | untouched hSteady => exact .untouched hSteady
          | called hBefore hPermits hAfter =>
              refine .called hBefore ?_ hAfter
              rintro id caller' kind rfl
              cases hPermits with
              | take hOp hWhich hId hRefresh hLoad =>
                  exact ⟨pipe, input, caller, request, _, _, _, _, rfl, hOpen, hOp, hWhich, hId,
                    hRefresh, hLoad⟩

variable {b b₀ : Broker} {e : Event} {entry : Bytes × Session}

/-- A session stays in the table until it is taken, its time is up or the process ends. -/
theorem mem_step (hClock : Monotone E.clock) (hMem : entry ∈ b.sessions) (h : Survives P E b e)
    (hUntaken : ¬ Takes P E b e entry.1)
    (hAlive : E.clock (step P E b e).machine.tick < entry.2.expiresAt) :
    entry ∈ (step P E b e).sessions := by
  cases step_uses h with
  | untouched hSteady => exact hSteady.2 ▸ hMem
  | @called c call hBefore hMay hAfter =>
      rw [hAfter.2]
      by_contra hGone
      -- it can leave only by being taken, or after its deadline
      rcases (observes hClock c call).leaves entry (hBefore.2 ▸ hMem) hGone with
        ⟨caller, kind, rfl⟩ | ⟨t, -, ht, hExpired⟩
      · exact hUntaken (hMay _ _ _ rfl)
      · have hLate : E.clock t ≤ E.clock (step P E b e).machine.tick :=
          hClock (ht.le.trans hAfter.1.tick_le)
        exact absurd (hAlive.trans_le hExpired) hLate.not_gt

theorem withinQuota_event (hClock : Monotone E.clock) (hQuota : WithinQuota b.sessions)
    (e : Event) : WithinQuota (step P E b e).sessions := by
  by_cases hSurvives : Survives P E b e
  · cases step_uses hSurvives with
    | untouched hSteady => exact hSteady.2 ▸ hQuota
    | @called c call hBefore _ hAfter =>
        rw [hAfter.2]
        exact withinQuota_step hClock (hBefore.2 ▸ hQuota) call
  · rw [sessions_of_not_survives hSurvives]
    exact withinQuota_nil

/-- The bounds of the table hold in every state of a Broker that started without
sessions. -/
theorem withinQuota_run (hClock : Monotone E.clock) (h₀ : b₀.sessions = []) (es : List Event) :
    WithinQuota (run P E b₀ es).sessions :=
  History.run_keeps (I := fun b : Broker => WithinQuota b.sessions) (C := fun _ _ => True)
    (fun _ e hQuota _ => withinQuota_event hClock hQuota e) (h₀ ▸ withinQuota_nil)
    (History.along_of_forall fun _ _ => trivial)

theorem tick_le_event (b : Broker) (e : Event) :
    b.machine.tick ≤ (step P E b e).machine.tick := by
  cases e with
  | request pipe input => exact (serve_machine_later pipe input b).tick_le
  | restart => exact (transacts_later.refreshLocalAccounts b.machine).tick_le
  | tamper content => exact le_refl _

theorem tick_le_events (b : Broker) (es : List Event) :
    b.machine.tick ≤ (run P E b es).machine.tick := by
  induction es generalizing b with
  | nil => exact le_refl _
  | cons e es ih => exact (tick_le_event b e).trans (ih _)

/-! ## Identifiers -/

/-- The identifier was drawn at a tick from `m` to `n`. -/
def DrawnDuring (E : Environment) (m n : Machine) (id : Bytes) : Prop :=
  ∃ t data, m.tick ≤ t ∧ t < n.tick ∧ E.random 24 t = some data ∧
    id = Convert.base64URLEncode data.val

theorem DrawnDuring.mono {m m' n n' : Machine} {id : Bytes} (h : DrawnDuring E m n id)
    (hFrom : m'.tick ≤ m.tick) (hTo : n.tick ≤ n'.tick) : DrawnDuring E m' n' id := by
  obtain ⟨t, data, ht, ht', hDrawn⟩ := h
  exact ⟨t, data, hFrom.trans ht, ht'.trans_le hTo, hDrawn⟩

theorem allocateSession_drawn (session : Session) (attempts : Nat) (b : Broker) :
    Meets (allocateSession E session attempts) b fun o b' =>
      ∀ id, o = .returned id → DrawnDuring E b.machine b'.machine id := by
  induction attempts generalizing b with
  | zero => nofun
  | succ attempts ih =>
      have hAgain : Meets (allocateSession E session attempts) (b.setMachine b.machine.next)
          fun o b' => ∀ id, o = .returned id → DrawnDuring E b.machine b'.machine id :=
        (ih _).mono fun _ _ h id ho => (h id ho).mono (Nat.le_succ _) (le_refl _)
      unfold allocateSession
      rw [meets_bind, meets_onMachine]
      unfold randomId
      rw [meets_bind, meets_ask]
      dsimp only
      cases hRandom : E.random 24 b.machine.tick with
      | none => exact hAgain
      | some data =>
          rw [meets_pure]
          dsimp only
          rw [meets_bind, meets_gets]
          dsimp only
          split_ifs
          · rintro _ ⟨⟩
            exact ⟨_, data, le_refl _, Nat.lt_succ_self _, hRandom, rfl⟩
          · exact hAgain

theorem putSession_drawn (session : Session) (b : Broker) :
    Meets (putSession E session) b fun o b' =>
      ∀ id, o = .returned id → DrawnDuring E b.machine b'.machine id := by
  unfold putSession
  split_ifs
  · nofun
  rw [meets_bind, meets_onMachine, meets_ask]
  dsimp only
  rw [meets_bind, meets_gets]
  dsimp only
  rw [meets_bind, meets_onMachine]
  refine (meets_purgeExpired b.sessions b.machine.next).mono ?_
  rintro _ m ⟨hQuiet, live, rfl, -⟩
  dsimp only
  rw [meets_bind, meets_update]
  dsimp only
  split_ifs
  · nofun
  · exact (allocateSession_drawn _ 4 _).mono fun _ _ h id ho =>
      (h id ho).mono ((Nat.le_succ _).trans hQuiet.tick_le) (le_refl _)

/-- An entry that an event adds to the table has an identifier drawn by this event. -/
theorem drawn_of_mem_step (hClock : Monotone E.clock) (hBefore : entry ∉ b.sessions)
    (hAfter : entry ∈ (step P E b e).sessions) :
    DrawnDuring E b.machine (step P E b e).machine entry.1 := by
  have hSurvives : Survives P E b e := by
    by_contra hEnds
    rw [sessions_of_not_survives hEnds] at hAfter
    cases hAfter
  cases step_uses hSurvives with
  | untouched hSteady => exact absurd (hSteady.2 ▸ hAfter) hBefore
  | @called c call hFirst _ hLast =>
      rw [hLast.2] at hAfter
      obtain ⟨session, rfl, hIssues, -⟩ := issued_of_mem_step hClock (hFirst.2 ▸ hBefore) hAfter
      have hDrawn := putSession_drawn (E := E) session c
      exact (hDrawn _ hIssues).mono hFirst.1.tick_le hLast.1.tick_le

/-- No two calls for 24 random bytes draw the same. -/
def DrawsOnce (E : Environment) : Prop :=
  ∀ t t' data data', E.random 24 t = some data → E.random 24 t' = some data' →
    data.val = data'.val → t = t'

/-- Two events that draw the same identifier are not one after the other. -/
theorem DrawnDuring.overlap (hOnce : DrawsOnce E) {m m' n n' : Machine} {id : Bytes}
    (h : DrawnDuring E m n id) (h' : DrawnDuring E m' n' id) :
    m.tick < n'.tick ∧ m'.tick < n.tick := by
  obtain ⟨t, data, hFrom, hTo, hDrawn, rfl⟩ := h
  obtain ⟨t', data', hFrom', hTo', hDrawn', hSame⟩ := h'
  have hNonempty : ∀ x : { data : Bytes // data.length = 24 }, x.val ≠ [] := fun x hEmpty => by
    have hLength := x.property
    rw [hEmpty] at hLength
    cases hLength
  have hData : data.val = data'.val := by
    rw [← Convert.base64URLDecode_encode (hNonempty data), hSame,
      Convert.base64URLDecode_encode (hNonempty data')]
  obtain rfl := hOnce t t' data data' hDrawn hDrawn' hData
  exact ⟨hFrom.trans_lt hTo', hFrom'.trans_lt hTo⟩

theorem tick_le_of_before {pre a : List Event} {e : Event} :
    (run P E b₀ (pre ++ [e])).machine.tick ≤ (run P E b₀ (pre ++ e :: a)).machine.tick := by
  have hRest : pre ++ e :: a = (pre ++ [e]) ++ a := by simp
  rw [hRest, run, run, History.run_append _ (pre ++ [e]) a]
  exact tick_le_events _ a

/-- Two events of a run neither of which is over before the other one begins are the
same. -/
theorem same_event {pre pre' post post' : List Event} {e e' : Event}
    (hSplit : pre ++ e :: post = pre' ++ e' :: post')
    (hLt : (run P E b₀ pre).machine.tick < (run P E b₀ (pre' ++ [e'])).machine.tick)
    (hLt' : (run P E b₀ pre').machine.tick < (run P E b₀ (pre ++ [e])).machine.tick) :
    pre = pre' ∧ e = e' := by
  rcases List.append_eq_append_iff.mp hSplit with ⟨a, rfl, hTail⟩ | ⟨a, rfl, hTail⟩
  · cases a with
    | nil =>
        rw [List.nil_append] at hTail
        cases hTail
        exact ⟨(List.append_nil pre).symm, rfl⟩
    | cons f a =>
        rw [List.cons_append] at hTail
        cases hTail
        exact absurd tick_le_of_before hLt'.not_ge
  · cases a with
    | nil =>
        rw [List.nil_append] at hTail
        cases hTail
        exact ⟨List.append_nil pre', rfl⟩
    | cons f a =>
        rw [List.cons_append] at hTail
        cases hTail
        exact absurd tick_le_of_before hLt.not_ge

/-- One identifier is given to one session only: an entry that is in the table later under
the identifier of a session that was opened is that session. -/
theorem opened_once (hClock : Monotone E.clock) (hOnce : DrawsOnce E) (h₀ : b₀.sessions = [])
    {pre post : List Event} {id : Bytes} {session later : Session}
    (hBefore : (id, session) ∉ (run P E b₀ pre).sessions)
    (hOpened : (id, session) ∈ (run P E b₀ (pre ++ [e])).sessions)
    (hLater : (id, later) ∈ (run P E b₀ (pre ++ e :: post)).sessions) : later = session := by
  have hStart : (id, later) ∉ b₀.sessions := by
    rw [h₀]
    exact List.not_mem_nil
  obtain ⟨pre', e', post', hSplit, hBefore', hSince⟩ :=
    History.exists_origin (P := fun b : Broker => (id, later) ∈ b.sessions) hStart hLater
  have hOpened' : (id, later) ∈ (run P E b₀ (pre' ++ [e'])).sessions := by
    exact hSince [] post' rfl
  rw [run_concat] at hOpened hOpened'
  have hDrawn := drawn_of_mem_step hClock hBefore hOpened
  have hDrawn' := drawn_of_mem_step hClock hBefore' hOpened'
  obtain ⟨hLt, hLt'⟩ := hDrawn.overlap hOnce hDrawn'
  -- the two events are the same one of the run
  rw [← run_concat] at hLt hLt'
  obtain ⟨rfl, rfl⟩ := same_event hSplit hLt hLt'
  have hQuota : WithinQuota (step P E (run P E b₀ pre) e).sessions :=
    withinQuota_event hClock (withinQuota_run hClock h₀ pre) e
  have hFound := findSession_of_mem hQuota.distinct hOpened
  have hFound' := findSession_of_mem hQuota.distinct hOpened'
  exact Option.some.inj (hFound'.symm.trans hFound)

/-- What the table has under an identifier stays what it is. -/
theorem same_session (hClock : Monotone E.clock) (hOnce : DrawsOnce E) (h₀ : b₀.sessions = [])
    {es post : List Event} {id : Bytes} {session later : Session}
    (hNow : (id, session) ∈ (run P E b₀ es).sessions)
    (hLater : (id, later) ∈ (run P E b₀ (es ++ post)).sessions) : later = session := by
  have hStart : (id, session) ∉ b₀.sessions := by
    rw [h₀]
    exact List.not_mem_nil
  obtain ⟨pre, e, rest, rfl, hBefore, hSince⟩ :=
    History.exists_origin (P := fun b : Broker => (id, session) ∈ b.sessions) hStart hNow
  rw [List.append_assoc, List.cons_append] at hLater
  exact opened_once hClock hOnce h₀ hBefore (hSince [] rest rfl) hLater

/-! ## Runs -/

/-- Nothing ends the process or takes the session `id` in the events `post` after `pre`. -/
def SessionSpared (P : Platform) (E : Environment) (id : Bytes) (b : Broker) (es : List Event) : Prop :=
  History.Along (step P E) (fun b e => Survives P E b e ∧ ¬ Takes P E b e id) b es

theorem mem_of_spared (hClock : Monotone E.clock) {es : List Event} (hMem : entry ∈ b.sessions)
    (hSpared : SessionSpared P E entry.1 b es)
    (hAlive : E.clock (run P E b es).machine.tick < entry.2.expiresAt) :
    entry ∈ (run P E b es).sessions := by
  induction es generalizing b with
  | nil => exact hMem
  | cons e es ih =>
      obtain ⟨⟨hSurvives, hUntaken⟩, hRest⟩ := hSpared
      have hEarlier : E.clock (step P E b e).machine.tick < entry.2.expiresAt :=
        (hClock (tick_le_events _ es)).trans_lt hAlive
      exact ih (mem_step hClock hMem hSurvives hUntaken hEarlier) hRest hAlive

/-- In any run of a Broker that started without sessions: every request makes at most one
call on the table, which keeps its bounds; a session that an event opened can be taken by
its caller later on, unless another request took it, its time is up or the process ended;
and if no random bytes are drawn twice, its identifier never stands for another session. -/
theorem session_available (hClock : Monotone E.clock) (h₀ : b₀.sessions = []) {pre : List Event}
    {e : Event} {id : Bytes} {session : Session}
    (hBefore : (id, session) ∉ (run P E b₀ pre).sessions)
    (hOpened : (id, session) ∈ (run P E b₀ (pre ++ [e])).sessions) (post : List Event) :
    (∀ (es : List Event) (caller : Caller) (request : Json),
      Uses E (Permits P E (run P E b₀ es) caller request) (run P E b₀ es)
        (handle P E caller request (run P E b₀ es)).2) ∧
    WithinQuota (run P E b₀ (pre ++ e :: post)).sessions ∧
    (SessionSpared P E id (run P E b₀ (pre ++ [e])) post →
      E.clock (run P E b₀ (pre ++ e :: post)).machine.tick < session.expiresAt →
      ∀ caller : Caller, caller.isSystem = true ∨ isSameSid caller.sid session.callerSid = true →
        (takeSession E id caller session.kind (run P E b₀ (pre ++ e :: post))).1 =
          .returned (.ok session)) ∧
    (DrawsOnce E → ∀ later, (id, later) ∈ (run P E b₀ (pre ++ e :: post)).sessions →
      later = session) := by
  have hQuota := withinQuota_run (P := P) hClock h₀ (pre ++ e :: post)
  refine ⟨fun es caller request => handle_uses caller request _, hQuota,
    fun hSpared hAlive caller hCaller => ?_, fun hOnce later hLater =>
      opened_once hClock hOnce h₀ hBefore hOpened hLater⟩
  have hSplit : pre ++ e :: post = (pre ++ [e]) ++ post := by simp
  rw [hSplit, run, History.run_append] at hAlive hQuota ⊢
  have hMem := mem_of_spared hClock hOpened hSpared hAlive
  rw [takeSession_of_mem hQuota hMem]
  exact congrArg _ (checkSession_of_alive hAlive rfl hCaller)

section Example

open Reference

theorem drawsOnce_unrepeated : DrawsOnce unrepeated := by
  have hDraws : ∀ t data, unrepeated.random 24 t = some data →
      t < 256 ∧ data.val = List.replicate 24 (UInt8.ofNat t) := by
    intro t data hDrawn
    by_cases hLate : 256 ≤ t
    · simp [unrepeated, hLate] at hDrawn
    · simp only [unrepeated, hLate, and_false, if_false, if_true, Option.some.injEq] at hDrawn
      exact ⟨Nat.lt_of_not_le hLate, by rw [← hDrawn]⟩
  intro t t' data data' hDrawn hDrawn' hSame
  obtain ⟨hLess, hData⟩ := hDraws t data hDrawn
  obtain ⟨hLess', hData'⟩ := hDraws t' data' hDrawn'
  rw [hData, hData', List.replicate_right_inj (by decide)] at hSame
  have hNat := congrArg UInt8.toNat hSame
  rwa [UInt8.toNat_ofNat_of_lt' hLess, UInt8.toNat_ofNat_of_lt' hLess'] at hNat

/-- `alice` begins. -/
def beginsLogin : Event := .request alicePipe beginText

theorem beginsLogin_sessions :
    ((run (platform {}) unrepeated keyBroker ([] ++ [beginsLogin])).sessions.map fun entry =>
        (entry.2.callerSid, decide (0 < entry.2.expiresAt))) = [(aliceSid, true)] := by
  decide +kernel

/-- Then the vault file is lost: her session is still hers, and nothing else is under its
identifier. -/
theorem session_available_example : ∃ id session,
    (id, session) ∈ (run (platform {}) unrepeated keyBroker ([] ++ [beginsLogin])).sessions ∧
    WithinQuota (run (platform {}) unrepeated keyBroker ([] ++ beginsLogin :: [.tamper none])).sessions ∧
    (takeSession unrepeated id aliceCaller session.kind (run (platform {}) unrepeated keyBroker
      ([] ++ beginsLogin :: [.tamper none]))).1 = .returned (.ok session) ∧
    ∀ later, (id, later) ∈ (run (platform {}) unrepeated keyBroker
      ([] ++ beginsLogin :: [.tamper none])).sessions → later = session := by
  have hClock : Monotone unrepeated.clock := fun _ _ _ => le_refl _
  have hEmpty : (run (platform {}) unrepeated keyBroker []).sessions = [] := rfl
  obtain ⟨⟨id, session⟩, hOnly, hEntry⟩ := List.map_eq_singleton_iff.mp beginsLogin_sessions
  obtain ⟨hCaller, hAlive⟩ := Prod.mk.inj hEntry
  have hMem : (id, session) ∈ (run (platform {}) unrepeated keyBroker ([] ++ [beginsLogin])).sessions := by
    rw [hOnly]
    exact List.mem_singleton_self _
  have hNew : (id, session) ∉ (run (platform {}) unrepeated keyBroker []).sessions := by
    rw [hEmpty]
    exact List.not_mem_nil
  have hSpared : SessionSpared (platform {}) unrepeated id
      (run (platform {}) unrepeated keyBroker ([] ++ [beginsLogin])) [.tamper none] :=
    ⟨⟨trivial, fun ⟨_, _, _, _, _, _, _, _, hEvent, _⟩ => by cases hEvent⟩, trivial⟩
  obtain ⟨-, hQuota, hTakes, hUnique⟩ := session_available hClock rfl hNew hMem [.tamper none]
  refine ⟨id, session, hMem, hQuota, hTakes hSpared (of_decide_eq_true hAlive) aliceCaller (.inr ?_),
    hUnique drawsOnce_unrepeated⟩
  rw [hCaller]
  exact wcsicmpEq_refl _

end Example

end BrokerService
end WindowsFidoLogon
