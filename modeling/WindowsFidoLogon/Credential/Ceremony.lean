import WindowsFidoLogon.Credential.Events
import WindowsFidoLogon.Model.Reference

/-!
# Which ceremony releases a logon

A logon leaves a tile only while `_mfaComplete` is set.  In a run in which no
`Connect` stalls while the flag is set already, the flag is the work of the latest
`Connect`, and nothing undid it since.  A `Connect` that stalls leaves an earlier
flag as it is.
-/

namespace WindowsFidoLogon
namespace Tile

open Text History Program CCredential

variable (P : Platform)

/-- The latest acts authorize a sign-in of `sid`: the Broker answered that the account
is not enforced and the published policy agrees, or it accepted an assertion for
the challenge of the latest `BeginAuthentication`. -/
inductive Authorizes (sid : WString) : List Act → Prop
  | notEnforced (challenge : AuthenticationChallenge) (older : List Act)
      (hEnforced : challenge.enforced = false) :
      Authorizes sid (.policyChecked sid false :: .begun sid (some challenge) :: older)
  | keyVerified (challenge : AuthenticationChallenge) (older : List Act)
      (hBegun : lastBegun older = some (sid, some challenge)) :
      Authorizes sid (.finished challenge.sessionId true :: older)

/-- This `Connect` ends with `S_OK` once `sid` is authorized. -/
structure Completes (S : Surroundings) (t : Tile) (sid : WString) : Prop where
  status : (t.connect P S).1.status = S_OK
  authorizes : Authorizes sid (t.connect P S).2.acts

/-! ## What holds of every tile in use -/

/-- The pending challenge is that of the latest `BeginAuthentication`, and a retired
tile, or one that asks for a new password, is not complete. -/
structure Sound (t : Tile) : Prop where
  pending : ∀ challenge, t.core.challenge = some challenge →
    lastBegun t.acts = some (t.core.sid, some challenge)
  retired : t.core.retired = true → t.core.mfaComplete = false
  changing : t.core.mode = .changePassword → t.core.mfaComplete = false

theorem Sound.of_incomplete {t : Tile} (hChallenge : t.core.challenge = none)
    (hMfa : t.core.mfaComplete = false) : Sound t where
  pending := by
    rw [hChallenge]
    nofun
  retired := fun _ => hMfa
  changing := fun _ => hMfa

theorem Sound.of_same {t t' : Tile} (h : Sound t) (hCore : t'.core = t.core)
    (hBegun : lastBegun t'.acts = lastBegun t.acts) : Sound t' where
  pending := by
    rw [hCore, hBegun]
    exact h.pending
  retired := by
    rw [hCore]
    exact h.retired
  changing := by
    rw [hCore]
    exact h.changing

theorem Sound.of_inUse {t t' : Tile} (hUse : InUse t) (hRetired : t'.core.retired = t.core.retired)
    (hMode : t'.core.mode = t.core.mode) (hChallenge : t'.core.challenge = none) : Sound t' where
  pending := by
    rw [hChallenge]
    nofun
  retired := fun h => by
    rw [hRetired, hUse.retired] at h
    cases h
  changing := fun h => absurd (hMode ▸ h) hUse.mode

theorem Sound.connect {S : Surroundings} {t : Tile} (h : Sound t) : Sound (t.connect P S).2 := by
  cases connect_cases P S t with
  | refused hRefused hActs hCore => exact h.of_same hCore (by rw [hActs])
  | reset u hReset hUsername hUserSid hRetired hMode => exact .of_incomplete hReset.challenge hReset.mfaComplete
  | missing hUse hStalls hNoReset hBegun hCore => exact h.of_same hCore hBegun
  | blocked account hUse hStalls hAccount hChallenge hNoReset hCore =>
      refine ⟨?_, ?_, ?_⟩ <;> rw [hCore]
      · rw [show (identified account t.core).challenge = none from hChallenge]
        nofun
      · exact h.retired
      · exact h.changing
  | pinStage account challenge hStalls hUse hAccount hNoReset hBegun hCore =>
      refine ⟨?_, ?_, ?_⟩ <;> rw [hCore]
      · rintro _ ⟨⟩
        exact hBegun
      · exact h.retired
      · nofun
  | accepted account challenge older hUse hChallenge hAccount hEnforced hStatus hNoReset hActs
      hCore =>
      refine .of_inUse hUse ?_ ?_ ?_ <;> rw [hCore] <;> first | rfl | exact hChallenge
  | verifiedAtOnce account challenge older hUse hAccount hStatus hNoReset hActs hBegun hCore =>
      refine .of_inUse hUse ?_ ?_ ?_ <;> rw [hCore] <;> rfl
  | verified challenge hUse hChallenge hStatus hActs hCore =>
      refine .of_inUse hUse ?_ ?_ ?_ <;> rw [hCore]

theorem Sound.perform {S : Surroundings} {t : Tile} {callback : Callback} (h : Sound t) :
    Sound (t.perform P S callback).2 := by
  by_cases hConnect : callback = .connect
  · rw [hConnect]
    exact h.connect P
  · cases perform_cases P S hConnect t with
    | quiet hUnreported hActs hCore => exact h.of_same hCore (by rw [hActs])
    | reset hUsername hUserSid hRetired hChallenge hMfa hChange => exact .of_incomplete hChallenge hMfa
    | expired hStatus hExpired hActs hCore =>
        refine ⟨?_, ?_, ?_⟩ <;> rw [hCore]
        · rw [hActs]
          exact h.pending
        · exact fun _ => rfl
        · exact fun _ => rfl

/-- A tile of a credential that `Initialize` has just made. -/
def Fresh (t : Tile) : Prop :=
  ∃ (S : Surroundings) (scenario : UsageScenario) (username domain password userSid : WString),
    initializeCredential S scenario username domain password userSid = .ok t.credential

theorem Fresh.incomplete {t : Tile} (h : Fresh t) :
    t.core.challenge = none ∧ t.core.mfaComplete = false ∧
      t.core.passwordChangeAuthorized = false := by
  obtain ⟨S, scenario, username, domain, password, userSid, hStart⟩ := h
  have hCore : t.core = _ := initializeCredential_core S hStart
  rw [hCore]
  exact ⟨rfl, rfl, rfl⟩

theorem sound_run {t : Tile} (hStart : Fresh t) (es : List (Callback × Surroundings)) :
    Sound (run (step P) t es) :=
  run_keeps (I := Sound) (C := fun _ _ => True) (fun _ _ hSound _ => hSound.perform P)
    (.of_incomplete hStart.incomplete.1 hStart.incomplete.2.1)
    (along_of_forall fun _ _ => trivial)

theorem userSid_run (t : Tile) (es : List (Callback × Surroundings)) :
    (run (step P) t es).core.userSid = t.core.userSid :=
  run_keeps (I := fun u => u.core.userSid = t.core.userSid) (C := fun _ _ => True)
    (fun u e hSame _ => (perform_userSid P e.2 u e.1).trans hSame) rfl
    (along_of_forall fun _ _ => trivial)

/-! ## The latest ceremony -/

/-- The latest `Connect` of a run completed, and there was no reset, no change of the
user name and no report of a result since. -/
def ReleasedByLatest (t : Tile) (es : List (Callback × Surroundings)) : Prop :=
  ∃ pre S post sid, es = pre ++ (.connect, S) :: post ∧
    Completes P S (run (step P) t pre) sid ∧
    (∀ f ∈ post, f.1 ≠ .connect ∧ ∀ status substatus, f.1 ≠ .reportResult status substatus true) ∧
    NoReset (run (step P) t (pre ++ [(.connect, S)])) (run (step P) t es) ∧
    (run (step P) t es).core.username =
      (run (step P) t (pre ++ [(.connect, S)])).core.username

theorem ReleasedByLatest.snoc {t : Tile} {es : List (Callback × Surroundings)}
    (h : ReleasedByLatest P t es) {e : Callback × Surroundings}
    (hCallback : e.1 ≠ .connect ∧ ∀ status substatus, e.1 ≠ .reportResult status substatus true)
    (hActs : (step P (run (step P) t es) e).acts = (run (step P) t es).acts)
    (hCore : (step P (run (step P) t es) e).core = (run (step P) t es).core) :
    ReleasedByLatest P t (es ++ [e]) := by
  obtain ⟨pre, S, post, sid, hEs, hCompletes, hPost, hNoReset, hUsername⟩ := h
  refine ⟨pre, S, post ++ [e], sid, by rw [hEs]; simp, hCompletes, ?_, ?_, ?_⟩
  · intro f hf
    rcases List.mem_append.mp hf with hf | hf
    · exact hPost f hf
    · rw [List.mem_singleton.mp hf]
      exact hCallback
  · rw [run_concat t es e]
    exact hNoReset.same hActs
  · rw [run_concat t es e, hCore]
    exact hUsername

/-- A `Connect` that stalls while an earlier ceremony is still complete. -/
def StallsComplete (t : Tile) (event : Callback × Surroundings) : Prop :=
  event.1 = .connect ∧ t.core.mfaComplete = true ∧ Stalls event.2 t

/-- A tile that is complete after a `Connect` was completed by it, unless it stalled. -/
theorem Sound.connect_completes {S : Surroundings} {t : Tile} (h : Sound t)
    (hGoes : t.core.mfaComplete = true → ¬ Stalls S t)
    (hMfa : (t.connect P S).2.core.mfaComplete = true) : ∃ sid, Completes P S t sid := by
  cases connect_cases P S t with
  | refused hRefused hActs hCore =>
      rw [hCore] at hMfa
      rcases hRefused with hRetired | hMode
      · rw [h.retired hRetired] at hMfa
        cases hMfa
      · rw [h.changing hMode] at hMfa
        cases hMfa
  | reset u hReset hUsername hUserSid hRetired hMode =>
      rw [hReset.mfaComplete] at hMfa
      cases hMfa
  | missing hUse hStalls hNoReset hBegun hCore =>
      rw [hCore] at hMfa
      exact absurd hStalls (hGoes hMfa)
  | blocked account hUse hStalls hAccount hChallenge hNoReset hCore =>
      rw [hCore] at hMfa
      exact absurd hStalls (hGoes hMfa)
  | pinStage account challenge hStalls hUse hAccount hNoReset hBegun hCore =>
      rw [hCore] at hMfa
      exact absurd hStalls (hGoes hMfa)
  | accepted account challenge older hUse hChallenge hAccount hEnforced hStatus hNoReset hActs
      hCore =>
      refine ⟨account.sidString, hStatus, ?_⟩
      rw [hActs]
      exact .notEnforced challenge older hEnforced
  | verifiedAtOnce account challenge older hUse hAccount hStatus hNoReset hActs hBegun hCore =>
      refine ⟨account.sidString, hStatus, ?_⟩
      rw [hActs]
      exact .keyVerified challenge older hBegun
  | verified challenge hUse hChallenge hStatus hActs hCore =>
      refine ⟨t.core.sid, hStatus, ?_⟩
      rw [hActs]
      exact .keyVerified challenge t.acts (h.pending challenge hChallenge)

/-- By induction on the run: the last event is the completing `Connect`, or left the
tile as it was. -/
theorem releasedByLatest_of_complete {t : Tile} (hStart : Fresh t)
    {es : List (Callback × Surroundings)}
    (hRun : Along (step P) (fun u e => ¬ StallsComplete u e) t es)
    (hMfa : (run (step P) t es).core.mfaComplete = true) : ReleasedByLatest P t es := by
  induction es using List.reverseRecOn with
  | nil =>
      rw [run_nil, hStart.incomplete.2.1] at hMfa
      cases hMfa
  | append_singleton es e ih =>
      obtain ⟨hBefore, hLast, -⟩ := along_append.mp hRun
      obtain ⟨callback, S⟩ := e
      have hSound := sound_run P hStart es
      rw [run_concat] at hMfa
      by_cases hConnect : callback = .connect
      · subst hConnect
        obtain ⟨sid, hCompletes⟩ := hSound.connect_completes P
          (fun h hStalls => hLast ⟨rfl, h, hStalls⟩) hMfa
        exact ⟨es, S, [], sid, rfl, hCompletes, nofun, .refl _, rfl⟩
      · have hStep := perform_cases P S hConnect (run (step P) t es)
        generalize hEnd : Tile.perform P S (run (step P) t es) callback = end_ at hStep
        have hTile : step P (run (step P) t es) (callback, S) = end_.2 := congrArg Prod.snd hEnd
        rw [hTile] at hMfa
        cases hStep with
        | quiet hUnreported hActs hCore =>
            rw [hCore] at hMfa
            exact (ih hBefore hMfa).snoc P ⟨hConnect, hUnreported⟩ (by rw [hTile, hActs])
              (by rw [hTile, hCore])
        | reset hUsername hUserSid hRetired hChallenge hIncomplete hChange =>
            rw [hIncomplete] at hMfa
            cases hMfa
        | expired hStatus hExpired hActs hCore =>
            rw [hCore] at hMfa
            cases hMfa

/-! ## What is packed -/

theorem unicodeString_ok {value packed : WString} (h : unicodeString value = .ok packed) :
    packed = cstr value := by
  unfold unicodeString at h
  split at h
  · cases h
    rfl
  · cases h

theorem pack_ok {S : Surroundings} {blob packed : Serialization} (h : pack S blob = .ok packed) :
    packed = blob := by
  unfold pack at h
  split at h
  · cases hPackage : S.negotiatePackage with
    | error e =>
        rw [hPackage] at h
        cases h
    | ok package =>
        rw [hPackage] at h
        cases h
        rfl
  · cases h

/-- A logon carries the identity of the tile. -/
theorem packLogon_ok {S : Surroundings} {c : CCredential} {blob : Serialization}
    (h : packLogon S c = .ok blob) : ∃ message password,
      blob = .logon message (cstr c.core.domain) (cstr c.core.username) password := by
  unfold packLogon at h
  obtain ⟨protectedPassword, -, h⟩ := except_bind_eq_ok.mp h
  obtain ⟨domain, hDomain, h⟩ := except_bind_eq_ok.mp h
  obtain ⟨username, hUsername, h⟩ := except_bind_eq_ok.mp h
  obtain ⟨password, -, h⟩ := except_bind_eq_ok.mp h
  obtain ⟨message, -, h⟩ := except_bind_eq_ok.mp h
  rw [unicodeString_ok hDomain, unicodeString_ok hUsername] at h
  exact ⟨message, password, pack_ok h⟩

/-- So does a password change, which an earlier report must have authorized. -/
theorem packPasswordChange_ok {S : Surroundings} {c : CCredential} {blob : Serialization}
    (h : packPasswordChange S c = .ok blob) : c.core.passwordChangeAuthorized = true ∧
      ∃ oldPassword newPassword, blob =
        .changePassword (cstr c.core.domain) (cstr c.core.username) oldPassword newPassword := by
  unfold packPasswordChange at h
  dsimp only at h
  split at h
  · cases h
  · rename_i hAllowed
    simp only [Bool.or_eq_true, Bool.not_eq_true', not_or, Bool.not_eq_false] at hAllowed
    obtain ⟨domain, hDomain, h⟩ := except_bind_eq_ok.mp h
    obtain ⟨username, hUsername, h⟩ := except_bind_eq_ok.mp h
    obtain ⟨oldPassword, -, h⟩ := except_bind_eq_ok.mp h
    obtain ⟨newPassword, -, h⟩ := except_bind_eq_ok.mp h
    rw [unicodeString_ok hDomain, unicodeString_ok hUsername] at h
    exact ⟨hAllowed.1.1, oldPassword, newPassword, pack_ok h⟩

/-- What `GetSerialization` gives out: a password change of a tile that asks for one,
or a logon of a complete tile that does not. -/
inductive Emits (t : Tile) : Serialization → Prop
  | changePassword (oldPassword newPassword : WString)
      (hMode : t.core.mode = .changePassword) (hAuthorized : t.core.passwordChangeAuthorized = true) :
      Emits t (.changePassword (cstr t.core.domain) (cstr t.core.username) oldPassword newPassword)
  | logon (message : LogonMessage) (password : WString) (hMode : t.core.mode ≠ .changePassword)
      (hMfa : t.core.mfaComplete = true) :
      Emits t (.logon message (cstr t.core.domain) (cstr t.core.username) password)

theorem getSerialization_emits {S : Surroundings} {outputs : Bool} {t : Tile}
    {blob : Serialization} (h : (t.getSerialization S outputs).1.serialization = some blob) :
    Emits t blob := by
  unfold getSerialization at h
  split at h
  · cases h
  split at h
  · cases h
  split at h
  · rename_i hMode
    split at h
    · rename_i packed hPacked
      cases h
      obtain ⟨hAuthorized, oldPassword, newPassword, rfl⟩ := packPasswordChange_ok hPacked
      exact .changePassword oldPassword newPassword hMode hAuthorized
    · cases h
  · rename_i hMode
    split at h
    · cases h
    · rename_i hMfa
      split at h
      · rename_i packed hPacked
        cases h
        obtain ⟨message, password, rfl⟩ := packLogon_ok hPacked
        exact .logon message password hMode ((Bool.not_eq_false _).mp fun hNot => hMfa (by
          rw [show t.credential.mfaComplete = false from hNot]
          rfl))
      · cases h

/-- In a run in which no `Connect` stalls while the tile is complete, a logon is
released by the latest `Connect`. -/
theorem logon_released_by_latest {t : Tile} (hStart : Fresh t)
    {es : List (Callback × Surroundings)}
    (hRun : Along (step P) (fun u e => ¬ StallsComplete u e) t es)
    {S : Surroundings} {outputs : Bool} {message : LogonMessage}
    {domain username password : WString}
    (hEmit : ((run (step P) t es).getSerialization S outputs).1.serialization =
      some (.logon message domain username password)) : ReleasedByLatest P t es := by
  cases getSerialization_emits hEmit with
  | logon message password hMode hMfa => exact releasedByLatest_of_complete P hStart hRun hMfa

/-! ## Examples -/

/-- Surroundings in which everything succeeds; the Broker gives this answer. -/
def calm (answer : Option AuthenticationChallenge) : Surroundings where
  memory := { duplicates := fun _ _ => true }
  continues _ := true
  accounts := Reference.accountDatabase
  beginAuthentication _ := answer
  isSidEnforced _ := false
  devices := []
  selectByTouch _ := (FIDO_OK, 0)
  sign _ _ _ _ := (FIDO_OK, { clientdata := [], assertions := [] })
  finishAuthentication _ _ := true
  protectPassword password _ := .ok password
  negotiatePackage := .ok 0

/-- The anonymous tile of a logon. -/
def anonymous : Tile :=
  match initializeCredential (calm none) .logon [] [] [] [] with
  | .ok credential => { credential }
  | .error _ => { credential := {} }

theorem fresh_anonymous : Fresh anonymous := ⟨calm none, .logon, [], [], [], [], rfl⟩

/-- The user enters a name and a password, and the Broker does not enforce the
account. -/
def enters : List (Callback × Surroundings) :=
  [(.setStringValue 3 (some (wtext "alice")), calm none),
    (.setStringValue 4 (some (wtext "secret")), calm none),
    (.connect, calm (some {}))]

/-- A second `Connect`, for which the Broker is not available. -/
def enteredAgain : List (Callback × Surroundings) := enters ++ [(.connect, calm none)]

theorem logon_released_by_latest_example :
    ((run (step (Reference.platform {})) anonymous enters).getSerialization
      (calm none) true).1.serialization =
        some (.logon .interactiveLogon (wtext "PC") (wtext "alice") (wtext "secret")) ∧
      ReleasedByLatest (Reference.platform {}) anonymous enters := by
  have hEmit : ((run (step (Reference.platform {})) anonymous enters).getSerialization
      (calm none) true).1.serialization =
        some (.logon .interactiveLogon (wtext "PC") (wtext "alice") (wtext "secret")) := by
    decide +kernel
  refine ⟨hEmit, logon_released_by_latest _ fresh_anonymous ?_ hEmit⟩
  refine ⟨nofun, nofun, fun h => ?_, trivial⟩
  have hIncomplete : (run (step (Reference.platform {})) anonymous
      (enters.take 2)).core.mfaComplete = false := by decide +kernel
  exact Bool.noConfusion (hIncomplete.symm.trans h.2.1)

/-- The second `Connect` fails, and the logon that the first one authorized still
leaves the tile. -/
theorem logon_released_by_earlier_counterexample :
    ¬ ∀ (P : Platform) (t : Tile) (es : List (Callback × Surroundings)) (S : Surroundings)
        (outputs : Bool) (message : LogonMessage) (domain username password : WString),
      Fresh t →
      ((run (step P) t es).getSerialization S outputs).1.serialization =
        some (.logon message domain username password) → ReleasedByLatest P t es := by
  intro h
  have hEmit : ((run (step (Reference.platform {})) anonymous enteredAgain).getSerialization
      (calm none) true).1.serialization =
        some (.logon .interactiveLogon (wtext "PC") (wtext "alice") (wtext "secret")) := by
    decide +kernel
  obtain ⟨pre, S, post, sid, hEs, hCompletes, hPost, -⟩ :=
    h _ _ _ _ _ _ _ _ _ fresh_anonymous hEmit
  unfold enteredAgain at hEs
  rcases post.eq_nil_or_concat with rfl | ⟨rest, e, rfl⟩
  · -- the completing `Connect` would be the second one
    obtain ⟨rfl, hLast⟩ := List.append_inj' hEs rfl
    obtain ⟨rfl⟩ := List.cons_eq_cons.mp hLast |>.1
    have hStatus : ((run (step (Reference.platform {})) anonymous enters).connect
        (Reference.platform {}) (calm none)).1.status ≠ S_OK := by decide +kernel
    exact hStatus hCompletes.status
  · -- and no other one is the latest
    rw [List.concat_eq_append, ← List.cons_append, ← List.append_assoc] at hEs
    obtain ⟨-, hLast⟩ := List.append_inj' hEs rfl
    exact (hPost e (by simp)).1 (by rw [← (List.cons_eq_cons.mp hLast).1])

end Tile
end WindowsFidoLogon
