import Mathlib.Order.Monotone.Defs
import WindowsFidoLogon.Broker.Handling
import WindowsFidoLogon.Codec.Base64
import WindowsFidoLogon.Library.History
import WindowsFidoLogon.Library.Keyed
import WindowsFidoLogon.Model.Reference

/-!
# The session table

`PutSession` and `TakeSession` in any order.  `PutEnds` and `TakeEnds` say how one
call can end; the bounds of the table, the reasons of a refusal and the ways a
session can leave are read off them.

The purge reads the clock once for every entry, so a session can pass it and be
expired when it is over.  All that passed were alive when the call began.
-/

namespace WindowsFidoLogon
namespace BrokerService

open Program Text Environment

variable {E : Environment}

/-! ## How one call ends -/

/-- At some reading of the clock between the two machines, the session's time was up. -/
def ExpiredDuring (E : Environment) (m n : Machine) (session : Session) : Prop :=
  ∃ t, m.tick ≤ t ∧ t < n.tick ∧ session.expiresAt ≤ E.clock t

theorem ExpiredDuring.mono {m m' n n' : Machine} {session : Session}
    (h : ExpiredDuring E m n session) (hFrom : m'.tick ≤ m.tick) (hTo : n.tick ≤ n'.tick) :
    ExpiredDuring E m' n' session := by
  obtain ⟨t, ht, ht', hExpired⟩ := h
  exact ⟨t, hFrom.trans ht, ht'.trans_le hTo, hExpired⟩

/-- What the purge of a call that begins at `m` leaves of a table. -/
structure Purged (E : Environment) (m n : Machine) (sessions live : List (Bytes × Session)) :
    Prop where
  sublist : live.Sublist sessions
  expired : ∀ e ∈ sessions, e ∉ live → ExpiredDuring E m n e.2
  alive : ∀ e ∈ live, E.clock m.tick < e.2.expiresAt

theorem Purged.mono (hClock : Monotone E.clock) {m m' n n' : Machine}
    {sessions live : List (Bytes × Session)} (h : Purged E m n sessions live)
    (hFrom : m'.tick ≤ m.tick) (hTo : n.tick ≤ n'.tick) : Purged E m' n' sessions live where
  sublist := h.sublist
  expired := fun e he hGone => (h.expired e he hGone).mono hFrom hTo
  alive := fun e he => (hClock hFrom).trans_lt (h.alive e he)

theorem purgeExpired_purges (hClock : Monotone E.clock) (sessions : List (Bytes × Session))
    (m : Machine) :
    Meets (purgeExpired E sessions) m fun o n =>
      Quiet m n ∧ ∃ live, o = .returned live ∧ Purged E m n sessions live := by
  induction sessions generalizing m with
  | nil => exact ⟨Std.Refl.refl m, [], rfl, .refl _, nofun, nofun⟩
  | cons entry rest ih =>
      unfold purgeExpired
      rw [meets_bind, meets_ask]
      dsimp only
      rw [meets_bind]
      refine (ih m.next).mono ?_
      rintro _ n ⟨hQuiet, live, rfl, hRest⟩
      have hLate : m.tick < n.tick := Nat.lt_of_succ_le hQuiet.tick_le
      have hPurged : Purged E m n rest live := hRest.mono hClock (Nat.le_succ _) (le_refl _)
      refine ⟨Trans.trans (Quiet.next m) hQuiet, _, rfl, ?_⟩
      split_ifs with hExpired
      · refine ⟨hPurged.sublist.trans (List.sublist_cons_self _ _), ?_, hPurged.alive⟩
        intro e he hGone
        cases List.mem_cons.mp he with
        | inl hSame => exact hSame ▸ ⟨m.tick, le_refl _, hLate, hExpired⟩
        | inr hMem => exact hPurged.expired e hMem hGone
      · refine ⟨hPurged.sublist.cons_cons _, ?_, ?_⟩
        · intro e he hGone
          rw [List.mem_cons, not_or] at hGone
          exact hPurged.expired e ((List.mem_cons.mp he).resolve_left hGone.1) hGone.2
        · intro e he
          cases List.mem_cons.mp he with
          | inl hSame => exact hSame ▸ Nat.lt_of_not_le hExpired
          | inr hMem => exact hPurged.alive e hMem

/-- The entry that a call which began at `m` makes for the session. -/
def expiring (E : Environment) (m : Machine) (session : Session) : Session :=
  { session with expiresAt := E.clock m.tick + kSessionLifetime }

/-- How `PutSession` can end. -/
inductive PutEnds (E : Environment) (session : Session) (b : Broker) :
    Outcome Bytes Bytes → Broker → Prop
  | incomplete : PutEnds E session b (.threw (text "unable to create cryptographic session")) b
  | full {b' : Broker} (hPurged : Purged E b.machine b'.machine b.sessions b'.sessions)
      (hFull : kMaximumSessions ≤ b'.sessions.length ∨
        kMaximumSessionsPerCaller ≤ sessionsOf session.callerSid b'.sessions) :
      PutEnds E session b (.threw (text "too many active Broker sessions")) b'
  | exhausted {b' : Broker} (hPurged : Purged E b.machine b'.machine b.sessions b'.sessions) :
      PutEnds E session b (.threw (text "unable to allocate unique Broker session")) b'
  | issued {b' : Broker} {live : List (Bytes × Session)} {id : Bytes}
      (hPurged : Purged E b.machine b'.machine b.sessions live)
      (hRoom : live.length < kMaximumSessions)
      (hShare : sessionsOf session.callerSid live < kMaximumSessionsPerCaller)
      (hLength : id.length = 32) (hFresh : findSession id live = none)
      (hSessions : b'.sessions = live ++ [(id, expiring E b.machine session)]) :
      PutEnds E session b (.returned id) b'

theorem allocateSession_ends (session : Session) (attempts : Nat) (b : Broker) :
    Meets (allocateSession E session attempts) b fun o b' =>
      Quiet b.machine b'.machine ∧
        ((o = .threw (text "unable to allocate unique Broker session") ∧
            b'.sessions = b.sessions) ∨
          ∃ id, o = .returned id ∧ id.length = 32 ∧ findSession id b.sessions = none ∧
            b'.sessions = b.sessions ++ [(id, session)]) := by
  induction attempts generalizing b with
  | zero => exact ⟨Std.Refl.refl _, .inl ⟨rfl, rfl⟩⟩
  | succ attempts ih =>
      have hAgain : Meets (allocateSession E session attempts) (b.setMachine b.machine.next)
          fun o b' => Quiet b.machine b'.machine ∧ _ :=
        (ih (b.setMachine b.machine.next)).mono fun _ _ ⟨hQuiet, h⟩ =>
          ⟨Trans.trans (Quiet.next b.machine) hQuiet, h⟩
      unfold allocateSession
      rw [meets_bind, meets_onMachine]
      unfold randomId
      rw [meets_bind, meets_ask]
      dsimp only
      cases E.random 24 b.machine.tick with
      | none => exact hAgain
      | some data =>
          rw [meets_pure]
          dsimp only
          rw [meets_bind, meets_gets]
          dsimp only
          split_ifs with hFresh
          · simp only [Bool.and_eq_true, Option.isNone_iff_eq_none] at hFresh
            have hLength : (Convert.base64URLEncode data.val).length = 32 := by
              rw [Convert.length_base64URLEncode, data.property]
            exact ⟨Quiet.next _, .inr ⟨_, rfl, hLength, hFresh.2, rfl⟩⟩
          · exact hAgain

theorem putSession_ends (hClock : Monotone E.clock) (session : Session) (b : Broker) :
    Meets (putSession E session) b (PutEnds E session b) := by
  unfold putSession
  split_ifs
  · exact .incomplete
  rw [meets_bind, meets_onMachine, meets_ask]
  dsimp only
  rw [meets_bind, meets_gets]
  dsimp only
  rw [meets_bind, meets_onMachine]
  refine (purgeExpired_purges hClock b.sessions b.machine.next).mono ?_
  rintro _ m ⟨hQuiet, live, rfl, hLive⟩
  have hPurged : Purged E b.machine m b.sessions live := hLive.mono hClock (Nat.le_succ _) (le_refl _)
  dsimp only
  rw [meets_bind, meets_update]
  dsimp only
  split_ifs with hFull
  · exact show PutEnds E session b _ ((b.setMachine m).setSessions live) from .full hPurged hFull
  · rw [not_or, not_le, not_le] at hFull
    refine (allocateSession_ends _ 4 _).mono ?_
    rintro o b' ⟨hRest, h⟩
    have hPurged' : Purged E b.machine b'.machine b.sessions live :=
      hPurged.mono hClock (le_refl _) hRest.tick_le
    rcases h with ⟨rfl, hSame⟩ | ⟨id, rfl, hLength, hFresh, hSessions⟩
    · exact .exhausted ((hSame : b'.sessions = live) ▸ hPurged')
    · exact .issued hPurged' hFull.1 hFull.2 hLength hFresh hSessions

/-! ## The table as a map -/

theorem findSession_eq (id : Bytes) (sessions : List (Bytes × Session)) :
    findSession id sessions = (Keyed.lookup Prod.fst id sessions).map Prod.snd := by
  simp only [findSession, Keyed.lookup, beq_eq_decide]

theorem findSession_eq_none {id : Bytes} {sessions : List (Bytes × Session)} :
    findSession id sessions = none ↔ ∀ e ∈ sessions, e.1 ≠ id := by
  rw [findSession_eq, Option.map_eq_none_iff, Keyed.lookup_eq_none_iff]

theorem findSession_of_mem {sessions : List (Bytes × Session)}
    (hDistinct : Keyed.Distinct Prod.fst sessions) {id : Bytes} {session : Session}
    (hMem : (id, session) ∈ sessions) : findSession id sessions = some session := by
  rw [findSession_eq, Keyed.lookup_of_mem hDistinct hMem]
  rfl

theorem mem_eraseSession {id : Bytes} {sessions : List (Bytes × Session)} {e : Bytes × Session} :
    e ∈ eraseSession id sessions ↔ e ∈ sessions ∧ e.1 ≠ id := by
  simp [eraseSession]

/-- How `TakeSession` can end: with its checks on the session it took, or without any
effect. -/
inductive TakeEnds (E : Environment) (id : Bytes) (caller : Caller) (expected : SessionKind)
    (b : Broker) : Outcome Bytes (Except Bytes Session) → Broker → Prop
  | invalid (hLength : id.length ≠ 32) :
      TakeEnds E id caller expected b (.returned (.error (text "invalid session identifier"))) b
  | unknown (hNone : findSession id b.sessions = none) :
      TakeEnds E id caller expected b
        (.returned (.error (text "unknown or already-used session"))) b
  | taken {session : Session} (hFound : findSession id b.sessions = some session) :
      TakeEnds E id caller expected b
        (.returned (checkSession session caller expected (E.clock b.machine.tick)))
        ((b.setSessions (eraseSession id b.sessions)).setMachine b.machine.next)

theorem takeSession_ends (id : Bytes) (caller : Caller) (expected : SessionKind) (b : Broker) :
    Meets (takeSession E id caller expected) b (TakeEnds E id caller expected b) := by
  unfold takeSession
  split_ifs with hLength
  · exact .invalid hLength
  rw [meets_bind, meets_gets]
  dsimp only
  cases hFound : findSession id b.sessions with
  | none => exact .unknown hFound
  | some session =>
      dsimp only
      rw [meets_bind, meets_update]
      dsimp only
      rw [meets_bind, meets_onMachine, meets_ask]
      exact .taken hFound

/-! ## The bounds of the table -/

/-- What holds of the table at all times. -/
structure WithinQuota (sessions : List (Bytes × Session)) : Prop where
  total : sessions.length ≤ kMaximumSessions
  perCaller : ∀ sid, sessionsOf sid sessions ≤ kMaximumSessionsPerCaller
  distinct : Keyed.Distinct Prod.fst sessions
  takeable : ∀ e ∈ sessions, e.1.length = 32

theorem withinQuota_nil : WithinQuota [] where
  total := Nat.zero_le _
  perCaller := fun _ => Nat.zero_le _
  distinct := List.nodup_nil
  takeable := nofun

theorem sessionsOf_append_singleton (sid : WString) (sessions : List (Bytes × Session)) (id : Bytes)
    (session : Session) :
    sessionsOf sid (sessions ++ [(id, session)]) =
      sessionsOf sid sessions + if isSameSid session.callerSid sid then 1 else 0 := by
  simp only [sessionsOf, List.countP_append, List.countP_singleton]

/-- Two names of one caller have the same share. -/
theorem sessionsOf_congr {sid sid' : WString} (hSame : isSameSid sid sid' = true)
    (sessions : List (Bytes × Session)) : sessionsOf sid sessions = sessionsOf sid' sessions := by
  unfold sessionsOf isSameSid
  simp only [wcsicmpEq_congr_right hSame]

namespace WithinQuota

variable {sessions : List (Bytes × Session)}

theorem sublist (h : WithinQuota sessions) {live : List (Bytes × Session)}
    (hLive : live.Sublist sessions) : WithinQuota live where
  total := hLive.length_le.trans h.total
  perCaller := fun sid => (hLive.countP_le).trans (h.perCaller sid)
  distinct := List.Nodup.sublist (hLive.map _) h.distinct
  takeable := fun e he => h.takeable e (hLive.subset he)

theorem append (h : WithinQuota sessions) {id : Bytes} {session : Session}
    (hRoom : sessions.length < kMaximumSessions)
    (hShare : sessionsOf session.callerSid sessions < kMaximumSessionsPerCaller)
    (hLength : id.length = 32) (hFresh : findSession id sessions = none) :
    WithinQuota (sessions ++ [(id, session)]) where
  total := by
    rw [List.length_append]
    exact hRoom
  perCaller := by
    intro sid
    rw [sessionsOf_append_singleton]
    split_ifs with hSame
    · rw [← sessionsOf_congr hSame]
      exact hShare
    · exact h.perCaller sid
  distinct := by
    unfold Keyed.Distinct
    rw [List.map_append, List.nodup_append]
    refine ⟨h.distinct, List.nodup_singleton _, ?_⟩
    intro k hk k' hk'
    obtain ⟨e, he, rfl⟩ := List.mem_map.mp hk
    obtain rfl : k' = id := List.mem_singleton.mp hk'
    exact findSession_eq_none.mp hFresh e he
  takeable := by
    intro e he
    cases List.mem_append.mp he with
    | inl hOld => exact h.takeable e hOld
    | inr hNew =>
        obtain rfl := List.mem_singleton.mp hNew
        exact hLength

theorem put {session : Session} {b b' : Broker} {o : Outcome Bytes Bytes}
    (h : WithinQuota b.sessions) (hEnds : PutEnds E session b o b') : WithinQuota b'.sessions := by
  cases hEnds with
  | incomplete => exact h
  | full hPurged => exact h.sublist hPurged.sublist
  | exhausted hPurged => exact h.sublist hPurged.sublist
  | issued hPurged hRoom hShare hLength hFresh hSessions =>
      rw [hSessions]
      exact (h.sublist hPurged.sublist).append hRoom hShare hLength hFresh

theorem take {id : Bytes} {caller : Caller} {expected : SessionKind} {b b' : Broker}
    {o : Outcome Bytes (Except Bytes Session)} (h : WithinQuota b.sessions)
    (hEnds : TakeEnds E id caller expected b o b') : WithinQuota b'.sessions := by
  cases hEnds with
  | invalid hLength => exact h
  | unknown hNone => exact h
  | taken hFound => exact h.sublist List.filter_sublist

end WithinQuota

/-! ## Runs -/

/-- A call of one of the two functions that use the table. -/
inductive TableCall
  | put (session : Session)
  | take (id : Bytes) (caller : Caller) (expected : SessionKind)

def TableCall.step (E : Environment) (b : Broker) : TableCall → Broker
  | .put session => (putSession E session b).2
  | .take id caller expected => (takeSession E id caller expected b).2

theorem step_put_ends (hClock : Monotone E.clock) (session : Session) (b : Broker) :
    PutEnds E session b (putSession E session b).1 ((TableCall.put session).step E b) :=
  putSession_ends hClock session b

theorem step_take_ends (id : Bytes) (caller : Caller) (expected : SessionKind) (b : Broker) :
    TakeEnds E id caller expected b (takeSession E id caller expected b).1
      ((TableCall.take id caller expected).step E b) :=
  takeSession_ends id caller expected b

/-- `PutSession` returned the identifier for the session. -/
def Issues (E : Environment) (b : Broker) (session : Session) (id : Bytes) : Prop :=
  (putSession E session b).1 = .returned id

/-- What every call observes. -/
structure Observes (E : Environment) (b : Broker) (call : TableCall) : Prop where
  /-- a session that leaves was taken by its identifier, or its time was up -/
  leaves : ∀ e ∈ b.sessions, e ∉ (call.step E b).sessions →
    (∃ caller expected, call = .take e.1 caller expected) ∨
      ExpiredDuring E b.machine (call.step E b).machine e.2
  /-- a refusal for reasons of quota finds that many unexpired sessions -/
  refuses : ∀ session, call = .put session →
    (putSession E session b).1 = .threw (text "too many active Broker sessions") →
      kMaximumSessions ≤ b.sessions.countP (fun e => E.clock b.machine.tick < e.2.expiresAt) ∨
        kMaximumSessionsPerCaller ≤ b.sessions.countP (fun e =>
          E.clock b.machine.tick < e.2.expiresAt ∧ isSameSid e.2.callerSid session.callerSid)
  /-- a new session has an identifier of the right length that no live session had -/
  issues : ∀ session id, call = .put session → Issues E b session id →
    id.length = 32 ∧ (id, expiring E b.machine session) ∈ (call.step E b).sessions ∧
      ∀ e ∈ b.sessions, e.1 = id → ExpiredDuring E b.machine (call.step E b).machine e.2

namespace Purged

variable {m n : Machine} {sessions live : List (Bytes × Session)}

theorem length_le (h : Purged E m n sessions live) :
    live.length ≤ sessions.countP (fun e => E.clock m.tick < e.2.expiresAt) := by
  have hAll : live.countP (fun e => E.clock m.tick < e.2.expiresAt) = live.length :=
    List.countP_eq_length.mpr fun e he => decide_eq_true (h.alive e he)
  exact hAll ▸ h.sublist.countP_le

theorem sessionsOf_le (h : Purged E m n sessions live) (sid : WString) :
    sessionsOf sid live ≤ sessions.countP (fun e =>
      E.clock m.tick < e.2.expiresAt ∧ isSameSid e.2.callerSid sid) := by
  have hAlive : sessionsOf sid live = live.countP (fun e =>
      E.clock m.tick < e.2.expiresAt ∧ isSameSid e.2.callerSid sid) :=
    List.countP_congr fun e he => by simp [h.alive e he]
  exact hAlive ▸ h.sublist.countP_le

/-- Nothing with the identifier of a new session passed the purge. -/
theorem expired_of_fresh (h : Purged E m n sessions live) {id : Bytes}
    (hFresh : findSession id live = none) {e : Bytes × Session} (he : e ∈ sessions) (hId : e.1 = id) :
    ExpiredDuring E m n e.2 :=
  h.expired e he fun hLive => findSession_eq_none.mp hFresh e hLive hId

end Purged

theorem observes_put (hClock : Monotone E.clock) (b : Broker) (session : Session) :
    Observes E b (.put session) := by
  have hEnds := step_put_ends hClock session b
  constructor
  · intro e he hGone
    refine .inr ?_
    generalize (putSession E session b).1 = o at hEnds
    generalize (TableCall.put session).step E b = b' at hEnds hGone ⊢
    cases hEnds with
    | incomplete => exact absurd he hGone
    | full hPurged => exact hPurged.expired e he hGone
    | exhausted hPurged => exact hPurged.expired e he hGone
    | issued hPurged hRoom hShare hLength hFresh hSessions =>
        rw [hSessions, List.mem_append, not_or] at hGone
        exact hPurged.expired e he hGone.1
  · rintro _ ⟨⟩ hRefused
    rw [hRefused] at hEnds
    generalize (TableCall.put session).step E b = b' at hEnds
    generalize hText : text "too many active Broker sessions" = refusal at hEnds
    cases hEnds with
    | incomplete => exact absurd hText (by decide)
    | full hPurged hFull =>
        exact hFull.imp (·.trans hPurged.length_le) (·.trans (hPurged.sessionsOf_le _))
    | exhausted hPurged => exact absurd hText (by decide)
  · rintro _ id ⟨⟩ hIssued
    unfold Issues at hIssued
    rw [hIssued] at hEnds
    generalize (TableCall.put session).step E b = b' at hEnds ⊢
    cases hEnds with
    | issued hPurged hRoom hShare hLength hFresh hSessions =>
        refine ⟨hLength, ?_, fun e he hId => hPurged.expired_of_fresh hFresh he hId⟩
        rw [hSessions]
        exact List.mem_append_right _ (List.mem_singleton_self _)

theorem observes_take (b : Broker) (id : Bytes) (caller : Caller) (expected : SessionKind) :
    Observes E b (.take id caller expected) := by
  have hEnds := step_take_ends (E := E) id caller expected b
  refine ⟨fun e he hGone => .inl ?_, nofun, nofun⟩
  generalize (takeSession E id caller expected b).1 = o at hEnds
  generalize (TableCall.take id caller expected).step E b = b' at hEnds hGone
  cases hEnds with
  | invalid hLength => exact absurd he hGone
  | unknown hNone => exact absurd he hGone
  | taken hFound =>
      have hId : e.1 = id := by
        by_contra hOther
        exact hGone (mem_eraseSession.mpr ⟨he, hOther⟩)
      exact ⟨caller, expected, hId ▸ rfl⟩

theorem observes (hClock : Monotone E.clock) (b : Broker) (call : TableCall) :
    Observes E b call := by
  cases call with
  | put session => exact observes_put hClock b session
  | take id caller expected => exact observes_take b id caller expected

theorem withinQuota_step (hClock : Monotone E.clock) {b : Broker} (h : WithinQuota b.sessions)
    (call : TableCall) : WithinQuota (call.step E b).sessions := by
  cases call with
  | put session => exact h.put (step_put_ends hClock session b)
  | take id caller expected => exact h.take (step_take_ends id caller expected b)

theorem tick_le_step (b : Broker) (call : TableCall) :
    b.machine.tick ≤ (call.step E b).machine.tick := by
  cases call with
  | put session =>
      have hPut : Quiet b.machine ((TableCall.put session).step E b).machine ∧ _ :=
        meets_putSession session b
      exact hPut.1.tick_le
  | take id caller expected =>
      have hEnds := step_take_ends (E := E) id caller expected b
      generalize (takeSession E id caller expected b).1 = o at hEnds
      generalize (TableCall.take id caller expected).step E b = b' at hEnds ⊢
      cases hEnds with
      | invalid hLength => exact le_refl _
      | unknown hNone => exact le_refl _
      | taken hFound => exact Nat.le_succ _

theorem tick_le_run (b : Broker) (calls : List TableCall) :
    b.machine.tick ≤ (History.run (TableCall.step E) b calls).machine.tick := by
  induction calls generalizing b with
  | nil => exact le_refl _
  | cons call calls ih => exact (tick_le_step b call).trans (ih _)

/-- An entry that one call adds is the session it issued. -/
theorem issued_of_mem_step (hClock : Monotone E.clock) {b : Broker} {call : TableCall}
    {e : Bytes × Session} (hBefore : e ∉ b.sessions) (hAfter : e ∈ (call.step E b).sessions) :
    ∃ session, call = .put session ∧ Issues E b session e.1 ∧
      e.2 = expiring E b.machine session := by
  cases call with
  | put session =>
      have hEnds := step_put_ends hClock session b
      refine ⟨session, rfl, ?_⟩
      unfold Issues
      generalize (putSession E session b).1 = o at hEnds ⊢
      generalize (TableCall.put session).step E b = b' at hEnds hAfter
      cases hEnds with
      | incomplete => exact absurd hAfter hBefore
      | full hPurged => exact absurd (hPurged.sublist.subset hAfter) hBefore
      | exhausted hPurged => exact absurd (hPurged.sublist.subset hAfter) hBefore
      | issued hPurged hRoom hShare hLength hFresh hSessions =>
          rw [hSessions] at hAfter
          rcases List.mem_append.mp hAfter with hOld | hNew
          · exact absurd (hPurged.sublist.subset hOld) hBefore
          · obtain rfl := List.mem_singleton.mp hNew
            exact ⟨rfl, rfl⟩
  | take id caller expected =>
      have hEnds := step_take_ends (E := E) id caller expected b
      generalize (takeSession E id caller expected b).1 = o at hEnds
      generalize (TableCall.take id caller expected).step E b = b' at hEnds hAfter
      cases hEnds with
      | invalid hLength => exact absurd hAfter hBefore
      | unknown hNone => exact absurd hAfter hBefore
      | taken hFound => exact absurd (mem_eraseSession.mp hAfter).1 hBefore

/-- A session stays until it is taken or its time is up. -/
theorem mem_run (hClock : Monotone E.clock) {b : Broker} {e : Bytes × Session}
    (hMem : e ∈ b.sessions) {calls : List TableCall}
    (hUntaken : ∀ caller expected, .take e.1 caller expected ∉ calls)
    (hAlive : E.clock (History.run (TableCall.step E) b calls).machine.tick < e.2.expiresAt) :
    e ∈ (History.run (TableCall.step E) b calls).sessions := by
  induction calls generalizing b with
  | nil => exact hMem
  | cons call calls ih =>
      have hStep : e ∈ (call.step E b).sessions := by
        by_contra hGone
        rcases (observes hClock b call).leaves e hMem hGone with
          ⟨caller, expected, rfl⟩ | ⟨t, -, ht, hExpired⟩
        · exact hUntaken caller expected List.mem_cons_self
        · have hLate : E.clock t ≤
              E.clock (History.run (TableCall.step E) b (call :: calls)).machine.tick :=
            hClock (ht.le.trans (tick_le_run _ calls))
          exact absurd (hAlive.trans_le hExpired) hLate.not_gt
      exact ih hStep (fun caller expected hIn => hUntaken caller expected
        (List.mem_cons_of_mem _ hIn)) hAlive

theorem takeSession_of_mem {b : Broker} (hQuota : WithinQuota b.sessions) {id : Bytes}
    {session : Session} (hMem : (id, session) ∈ b.sessions) (caller : Caller)
    (expected : SessionKind) :
    (takeSession E id caller expected b).1 =
      .returned (checkSession session caller expected (E.clock b.machine.tick)) := by
  have hFound := findSession_of_mem hQuota.distinct hMem
  have hEnds := step_take_ends (E := E) id caller expected b
  generalize (takeSession E id caller expected b).1 = o at hEnds ⊢
  generalize (TableCall.take id caller expected).step E b = b' at hEnds
  cases hEnds with
  | invalid hLength => exact absurd (hQuota.takeable _ hMem) hLength
  | unknown hNone => cases hNone.symm.trans hFound
  | taken hFound' =>
      obtain rfl := Option.some.inj (hFound.symm.trans hFound')
      rfl

theorem checkSession_of_alive {session : Session} {caller : Caller} {expected : SessionKind}
    {now : Nat} (hAlive : now < session.expiresAt) (hKind : session.kind = expected)
    (hCaller : caller.isSystem = true ∨ isSameSid caller.sid session.callerSid = true) :
    checkSession session caller expected now = .ok session := by
  unfold checkSession
  rw [if_neg (Nat.not_le.mpr hAlive), if_neg (not_not.mpr hKind), if_neg]
  cases hCaller with
  | inl hSystem => simp [hSystem]
  | inr hSame => simp [hSame]

/-- The discipline of the table over any sequence of calls, from an empty table on: its
bounds hold, every call observes the rules, every entry is a session some call issued 120
seconds before its end, and until then it can be taken by its caller. -/
theorem sessions_disciplined (hClock : Monotone E.clock) {b : Broker} (hEmpty : b.sessions = [])
    (calls : List TableCall) :
    WithinQuota (History.run (TableCall.step E) b calls).sessions ∧
    History.Along (TableCall.step E) (Observes E) b calls ∧
    (∀ e ∈ (History.run (TableCall.step E) b calls).sessions, ∃ pre session post,
      calls = pre ++ .put session :: post ∧
        Issues E (History.run (TableCall.step E) b pre) session e.1 ∧
          e.2 = expiring E (History.run (TableCall.step E) b pre).machine session) ∧
    ∀ pre session post id, calls = pre ++ .put session :: post →
      Issues E (History.run (TableCall.step E) b pre) session id →
      (∀ caller expected, .take id caller expected ∉ post) →
      E.clock (History.run (TableCall.step E) b calls).machine.tick <
        E.clock (History.run (TableCall.step E) b pre).machine.tick + kSessionLifetime →
      ∀ caller : Caller, caller.isSystem = true ∨ isSameSid caller.sid session.callerSid = true →
        (takeSession E id caller session.kind (History.run (TableCall.step E) b calls)).1 =
          .returned (.ok (expiring E (History.run (TableCall.step E) b pre).machine session)) := by
  have hObserves : History.Along (TableCall.step E) (Observes E) b calls :=
    History.along_iff.mpr fun pre call post _ => observes hClock _ call
  have hQuota : WithinQuota (History.run (TableCall.step E) b calls).sessions :=
    History.run_keeps (C := Observes E) (I := fun b : Broker => WithinQuota b.sessions)
      (fun _ call h _ => withinQuota_step hClock h call) (hEmpty ▸ withinQuota_nil) hObserves
  refine ⟨hQuota, hObserves, fun e he => ?_, ?_⟩
  · obtain ⟨pre, call, post, hCalls, hBefore, hSince⟩ :=
      History.exists_origin (P := fun b : Broker => e ∈ b.sessions) (by simp [hEmpty]) he
    have hAfter : e ∈ (call.step E (History.run (TableCall.step E) b pre)).sessions := by
      simpa only [History.run_concat] using hSince [] post rfl
    obtain ⟨session, rfl, hIssued⟩ := issued_of_mem_step hClock hBefore hAfter
    exact ⟨pre, session, post, hCalls, hIssued⟩
  · rintro pre session post id rfl hIssued hUntaken hAlive caller hCaller
    have hNew := (observes hClock _ (.put session)).issues session id rfl hIssued
    rw [History.run_append, History.run_cons] at hQuota hAlive ⊢
    have hMem := mem_run hClock hNew.2.1 hUntaken hAlive
    rw [takeSession_of_mem hQuota hMem]
    exact congrArg _ (checkSession_of_alive hAlive rfl hCaller)

section Example

open Reference

/-- A session of `alice` for herself. -/
def aliceSession : Session :=
  { callerSid := aliceSid
    targetSid := aliceSid
    challenge := text "AAAA"
    rpId := text "wfl-0.login.local"
    origin := text "https://wfl-0.login.local" }

/-- It is given out under an identifier with which `alice` takes it. -/
theorem sessions_disciplined_example :
    (takeSession calm (Convert.base64URLEncode (List.replicate 24 1)) { sid := aliceSid }
      .authentication ((TableCall.put aliceSession).step calm { machine := machine none none })).1 =
        .returned (.ok { aliceSession with expiresAt := 120000000000 }) := by
  have hTaken := (sessions_disciplined (E := calm) (fun _ _ _ => le_refl _)
    (b := { machine := machine none none }) rfl [.put aliceSession]).2.2.2
  exact hTaken [] aliceSession [] (Convert.base64URLEncode (List.replicate 24 1)) rfl
    (by unfold Issues; decide +kernel) (fun _ _ => List.not_mem_nil) (by decide +kernel) { sid := aliceSid }
    (.inr (wcsicmpEq_refl _))

end Example

end BrokerService
end WindowsFidoLogon
