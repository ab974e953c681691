import WindowsFidoLogon.Library.History
import WindowsFidoLogon.Model.CCredential

/-!
# What a callback does to a tile

The part of a credential that decides what it may serialize is its `Core`: the
mode, the identity, the pending challenge and the two authorization flags.  This
module states once, for each callback, what becomes of the core and of the record
of acts: `connect_cases` for the exits of `Connect`, and `perform_cases` for the
other callbacks.
-/

namespace WindowsFidoLogon

open Text LocalAccount CCredential

/-- The members of a credential on which its serializations depend, the secrets
apart. -/
structure Core where
  mode : Mode
  username : WString
  domain : WString
  challenge : Option AuthenticationChallenge
  userSid : WString
  sid : WString
  retired : Bool
  mfaComplete : Bool
  passwordChangeAuthorized : Bool

namespace CCredential

def core (c : CCredential) : Core where
  mode := c.configuration.mode
  username := c.configuration.credential.username
  domain := c.configuration.credential.domain
  challenge := c.challenge
  userSid := c.userSid
  sid := c.sid
  retired := c.retired
  mfaComplete := c.mfaComplete
  passwordChangeAuthorized := c.passwordChangeAuthorized

variable (S : Surroundings)

/-! ## The members outside the core -/

@[simp] theorem replaceFieldString_core (field : FieldId) (source : WString) (c : CCredential) :
    (replaceFieldString S field source c).2.core = c.core := by
  unfold replaceFieldString
  split <;> rfl

@[simp] theorem setStatus_core (text : WString) (c : CCredential) :
    (setStatus S text c).core = c.core := replaceFieldString_core S _ _ _

@[simp] theorem setStatus_devices (text : WString) (c : CCredential) :
    (setStatus S text c).devices = c.devices := by
  unfold setStatus replaceFieldString
  split <;> rfl

@[simp] theorem setMode_core (mode : Mode) (c : CCredential) :
    (setMode S mode c).2.core = { c.core with mode } := replaceFieldString_core S _ _ _

@[simp] theorem zeroString_core (field : FieldId) (c : CCredential) :
    (zeroString field c).core = c.core := rfl

@[simp] theorem clearPin_core (c : CCredential) : (clearPin c).core = c.core := rfl

@[simp] theorem setState_clearSecrets_core (c : CCredential) :
    (setState clearSecrets c).core = c.core := rfl

@[simp] theorem emptyPasswordFields_core (c : CCredential) :
    (Tile.emptyPasswordFields S c).core = c.core := by
  unfold Tile.emptyPasswordFields
  simp

@[simp] theorem resetMfa_core (c : CCredential) :
    (resetMfa S c).core = { c.core with mfaComplete := false, challenge := none } := by
  unfold resetMfa
  simp only [setStatus_core, clearPin_core]
  rfl

@[simp] theorem fullReset_core (c : CCredential) :
    (fullReset S c).core = { c.core with
      mode := .usernamePassword, challenge := none, sid := [], mfaComplete := false,
      passwordChangeAuthorized := false } := by
  have hReset : (fullReset S c).core = { (resetMfa S c).core with
      mode := .usernamePassword, sid := [], passwordChangeAuthorized := false } := by
    unfold fullReset
    simp only [setStatus_core, setMode_core]
    rfl
  rw [hReset, resetMfa_core]

end CCredential

namespace Tile

variable (P : Platform) (S : Surroundings)

def core (t : Tile) : Core := t.credential.core

@[simp] theorem record_core (act : Act) (t : Tile) : (t.record act).core = t.core := rfl

@[simp] theorem showStatus_core (id : UiTextId) (t : Tile) : (t.showStatus S id).core = t.core :=
  setStatus_core S _ _

@[simp] theorem showStatus_acts (id : UiTextId) (t : Tile) : (t.showStatus S id).acts = t.acts :=
  rfl

@[simp] theorem setMode_core (mode : Mode) (t : Tile) :
    (t.setMode S mode).core = { t.core with mode } := CCredential.setMode_core S _ _

@[simp] theorem setMode_acts (mode : Mode) (t : Tile) : (t.setMode S mode).acts = t.acts := rfl

@[simp] theorem resetMfa_core (t : Tile) :
    (t.resetMfa S).core = { t.core with mfaComplete := false, challenge := none } :=
  CCredential.resetMfa_core S _

@[simp] theorem resetMfa_acts (t : Tile) : (t.resetMfa S).acts = .reset :: t.acts := rfl

@[simp] theorem fullReset_core (t : Tile) :
    (t.fullReset S).core = { t.core with
      mode := .usernamePassword, challenge := none, sid := [], mfaComplete := false,
      passwordChangeAuthorized := false } :=
  CCredential.fullReset_core S _

@[simp] theorem fullReset_acts (t : Tile) : (t.fullReset S).acts = .reset :: t.acts := rfl

/-! ## The exits of `Connect` -/

/-- `t'` is what a reset left of `t`. -/
structure WasReset (t t' : Tile) : Prop where
  mode : t'.core.mode = .usernamePassword ∨ t'.core.mode = t.core.mode
  username : t'.core.username = t.core.username
  challenge : t'.core.challenge = none
  userSid : t'.core.userSid = t.core.userSid
  retired : t'.core.retired = t.core.retired
  mfaComplete : t'.core.mfaComplete = false

/-- The reset of a later tile of the same callback. -/
theorem WasReset.trans {t u t' : Tile} (h : WasReset u t') (hMode : u.core.mode = t.core.mode)
    (hUsername : u.core.username = t.core.username) (hUserSid : u.core.userSid = t.core.userSid)
    (hRetired : u.core.retired = t.core.retired) : WasReset t t' where
  mode := hMode ▸ h.mode
  username := h.username.trans hUsername
  challenge := h.challenge
  userSid := h.userSid.trans hUserSid
  retired := h.retired.trans hRetired
  mfaComplete := h.mfaComplete

theorem WasReset.of_core {t u t' : Tile} (h : WasReset u t') (hCore : u.core = t.core) :
    WasReset t t' :=
  h.trans (by rw [hCore]) (by rw [hCore]) (by rw [hCore]) (by rw [hCore])

theorem WasReset.mode_ne {t t' : Tile} (h : WasReset t t')
    (hMode : t.core.mode ≠ .changePassword) : t'.core.mode ≠ .changePassword := by
  rcases h.mode with h | h
  · rw [h]
    nofun
  · rw [h]
    exact hMode

theorem wasReset_fullReset (t : Tile) : WasReset t (t.fullReset S) := by
  constructor <;> simp

theorem wasReset_resetMfa (t : Tile) : WasReset t (t.resetMfa S) := by
  constructor <;> simp

theorem WasReset.showStatus {t t' : Tile} (h : WasReset t t') (id : UiTextId) :
    WasReset t (t'.showStatus S id) := by
  constructor <;> rw [showStatus_core]
  exacts [h.mode, h.username, h.challenge, h.userSid, h.retired, h.mfaComplete]

theorem wasReset_cancelled {point : QueryPoint} {t t' : Tile}
    (h : cancelled S point t = some t') : WasReset t t' := by
  unfold cancelled at h
  split at h
  · cases h
  · cases h
    exact (wasReset_fullReset S (t.record .cancelled)).of_core rfl

theorem wasReset_rejectKey (id : UiTextId) (t : Tile) : WasReset t (rejectKey S id t).2 := by
  constructor <;> simp [rejectKey]

theorem continues_of_not_cancelled {point : QueryPoint} {t : Tile}
    (h : cancelled S point t = none) : S.continues point = true := by
  by_contra hStop
  simp [cancelled, hStop] at h

/-- The SID of the latest `BeginAuthentication` and its answer. -/
def lastBegun : List Act → Option (WString × Option AuthenticationChallenge)
  | [] => none
  | .begun sid reply :: _ => some (sid, reply)
  | _ :: rest => lastBegun rest

/-- How `Connect` ends for a tile with a challenge: the tile is reset, waits for a
PIN, or is completed. -/
inductive Challenged (challenge : AuthenticationChallenge) (asksPin : Prop) (t : Tile) :
    Reply × Tile → Prop
  | reset {end_ : Reply × Tile} (hReset : WasReset t end_.2) : Challenged challenge asksPin t end_
  | pinStage {end_ : Reply × Tile} (hPin : asksPin) (hActs : end_.2.acts = t.acts)
      (hCore : end_.2.core = { t.core with challenge := some challenge, mode := .fido }) :
      Challenged challenge asksPin t end_
  | completed {end_ : Reply × Tile} (hStatus : end_.1.status = S_OK)
      (hActs : end_.2.acts = .finished challenge.sessionId true :: t.acts)
      (hCore : end_.2.core = { t.core with mfaComplete := true, challenge := none }) :
      Challenged challenge asksPin t end_

/-- Storing the challenge and changing what the core leaves out does not matter. -/
theorem Challenged.of_listed {challenge : AuthenticationChallenge} {asked asksPin : Prop}
    {t listed : Tile} {end_ : Reply × Tile} (h : Challenged challenge asked listed end_)
    (hActs : listed.acts = t.acts)
    (hCore : listed.core = { t.core with challenge := some challenge }) (hPin : asked → asksPin) :
    Challenged challenge asksPin t end_ := by
  cases h with
  | reset hReset =>
      refine .reset (hReset.trans ?_ ?_ ?_ ?_) <;> rw [hCore]
  | pinStage hAsked hEndActs hEndCore =>
      exact .pinStage (hPin hAsked) (hEndActs.trans hActs) (by rw [hEndCore, hCore])
  | completed hStatus hEndActs hEndCore =>
      exact .completed hStatus (by rw [hEndActs, hActs]) (by rw [hEndCore, hCore])

/-- The last part of `Connect` resets the tile or completes it. -/
theorem verifyKey_cases (challenge : AuthenticationChallenge) (t : Tile) :
    Challenged challenge False t (verifyKey P S challenge t) := by
  unfold verifyKey
  cases hDevice : t.credential.selectedDevice.bind (t.credential.devices[·]?) with
  | none => exact .reset (wasReset_rejectKey S _ t)
  | some device =>
      dsimp only
      generalize hAsked : (t.showStatus S .touchKey).change clearPin = asked
      have hActs : asked.acts = [] ++ t.acts := by rw [← hAsked]; rfl
      have hCore : asked.core = t.core := by
        rw [← hAsked]
        exact showStatus_core S _ t
      cases hSigned : cancelled S .signed asked with
      | some t' => exact .reset ((wasReset_cancelled S hSigned).of_core hCore)
      | none =>
          generalize S.sign device challenge.request challenge.origin
            (Convert.toString P t.credential.configuration.credential.fidoPin) = signed
          dsimp only
          split
          · exact .reset ((wasReset_rejectKey S _ asked).of_core hCore)
          · generalize S.finishAuthentication challenge.sessionId signed.2 = accepted
            generalize hTold : asked.record (.finished challenge.sessionId accepted) = told
            have hToldActs : told.acts = [.finished challenge.sessionId accepted] ++ t.acts := by
              rw [← hTold, record_acts, hActs]
              rfl
            have hToldCore : told.core = t.core := by rw [← hTold, record_core, hCore]
            cases accepted with
            | false => exact .reset ((wasReset_rejectKey S _ told).of_core hToldCore)
            | true =>
                cases hFinished : cancelled S .finished told with
                | some t' =>
                    exact .reset ((wasReset_cancelled S hFinished).of_core hToldCore)
                | none =>
                    exact .completed rfl hToldActs
                      ((showStatus_core S _ _).trans (by rw [← hToldCore]; rfl))

/-- The key that `Connect` would verify: the only one, or the one that was touched. -/
def chosenKey : Option FIDODevice :=
  match S.devices with
  | [] => none
  | [device] => some device
  | devices =>
      if S.continues .selected ∧ (S.selectByTouch devices).1 = FIDO_OK then
        devices[(S.selectByTouch devices).2]?
      else none

/-- A selected key is asked for its PIN, or verified at once. -/
theorem enterPin_cases {challenge : AuthenticationChallenge} (selected : Nat) {t : Tile}
    (hChallenge : t.core.challenge = some challenge) :
    Challenged challenge ((t.credential.devices[selected]?).any (·.hasPin) = true) t
      (enterPin P S challenge selected t) := by
  unfold enterPin
  dsimp only
  split
  · rename_i hPin
    refine .pinStage hPin rfl ?_
    simp only [showStatus_core, setMode_core, ← hChallenge]
    rfl
  · cases verifyKey_cases P S challenge
        (t.change fun c => { c with selectedDevice := some selected }) with
    | reset hReset => exact .reset (hReset.of_core rfl)
    | pinStage hPin => exact absurd hPin id
    | completed hStatus hActs hCore => exact .completed hStatus hActs hCore

/-- An enforced account: the chosen key is asked for its PIN, or verified. -/
theorem chooseDevice_cases (challenge : AuthenticationChallenge) (t : Tile) :
    Challenged challenge ((chosenKey S).any (·.hasPin) = true) t
      (chooseDevice P S challenge t) := by
  unfold chooseDevice
  generalize hListed : (t.change fun c =>
    { c with challenge := some challenge, devices := S.devices }) = listed
  have hActs : listed.acts = t.acts := by rw [← hListed]; rfl
  have hCore : listed.core = { t.core with challenge := some challenge } := by rw [← hListed]; rfl
  have hDevices : listed.credential.devices = S.devices := by rw [← hListed]; rfl
  have hChallenge : listed.core.challenge = some challenge := by rw [hCore]
  match hKeys : S.devices with
  | [] =>
      refine .reset (((wasReset_resetMfa S listed).showStatus S _).trans ?_ ?_ ?_ ?_) <;>
        rw [hCore]
  | [device] =>
      refine (enterPin_cases P S 0 hChallenge).of_listed hActs hCore fun hPin => ?_
      rw [hDevices, hKeys] at hPin
      rw [chosenKey, hKeys]
      exact hPin
  | first :: second :: rest =>
      dsimp only
      generalize hShown : listed.showStatus S .touchKey = shown
      have hShownActs : shown.acts = t.acts := by rw [← hShown, showStatus_acts, hActs]
      have hShownCore : shown.core = { t.core with challenge := some challenge } := by
        rw [← hShown, showStatus_core, hCore]
      have hShownDevices : shown.credential.devices = S.devices := by
        rw [← hShown, ← hDevices]
        exact setStatus_devices S _ _
      have hReset : ∀ {end_ : Reply × Tile}, WasReset shown end_.2 →
          Challenged challenge ((chosenKey S).any (·.hasPin) = true) t end_ := fun {end_} h => by
        have hShownReset : Challenged challenge False shown end_ := .reset h
        exact hShownReset.of_listed hShownActs hShownCore False.elim
      cases hSelected : cancelled S .selected shown with
      | some t' => exact hReset (wasReset_cancelled S hSelected)
      | none =>
          dsimp only
          split
          · exact hReset (wasReset_rejectKey S _ shown)
          · rename_i hTouched
            refine (enterPin_cases P S _ ?_).of_listed hShownActs hShownCore fun hPin => ?_
            · rw [hShownCore]
            · have hContinues := continues_of_not_cancelled S hSelected
              rw [hShownDevices, hKeys] at hPin
              simp only [chosenKey, hKeys]
              rw [if_pos ⟨hContinues, not_not.mp hTouched⟩]
              exact hPin

/-- `t'` comes from `t` by acts without a reset. -/
def NoReset (t t' : Tile) : Prop := ∃ newer, t'.acts = newer ++ t.acts ∧ Act.reset ∉ newer

theorem NoReset.refl (t : Tile) : NoReset t t := ⟨[], rfl, nofun⟩

theorem NoReset.same {t u u' : Tile} (h : NoReset t u) (hActs : u'.acts = u.acts) :
    NoReset t u' := by
  unfold NoReset
  rw [hActs]
  exact h

theorem NoReset.act {t u u' : Tile} (h : NoReset t u) (act : Act) (hAct : act ≠ .reset)
    (hActs : u'.acts = act :: u.acts) : NoReset t u' := by
  obtain ⟨newer, hNewer, hNone⟩ := h
  refine ⟨act :: newer, by rw [hActs, hNewer]; rfl, ?_⟩
  rw [List.mem_cons, not_or]
  exact ⟨hAct.symm, hNone⟩

theorem NoReset.trans {t u v : Tile} (h : NoReset t u) (h' : NoReset u v) : NoReset t v := by
  obtain ⟨newer, hNewer, hNone⟩ := h
  obtain ⟨later, hLater, hNone'⟩ := h'
  refine ⟨later ++ newer, by rw [hLater, hNewer, List.append_assoc], ?_⟩
  rw [List.mem_append, not_or]
  exact ⟨hNone', hNone⟩

/-- The user name resolves to this account, and a bound tile is bound to it. -/
structure Identifies (t : Tile) (account : ResolvedAccount) : Prop where
  resolved : resolveLocalAccount S.accounts t.core.username = .ok account
  bound : t.core.userSid = [] ∨ wcsicmpEq account.sidString t.core.userSid = true

/-- The core once the user name was resolved. -/
def identified (account : ResolvedAccount) (k : Core) : Core :=
  { k with
    username := account.username, domain := account.computerName, sid := account.sidString }

/-- The input and the answers with which `Connect` ends before it could complete the
tile, and without a reset: a missing user name or password, a name that does not
resolve, no answer from the Broker, a policy that contradicts it, or a PIN to enter. -/
def Stalls (t : Tile) : Prop :=
  let state := t.credential.configuration.credential
  S.continues .entered = true ∧
    (state.username = [] ∨ state.password = [] ∨ t.credential.challenge = none ∧
      match resolveLocalAccount S.accounts state.username with
      | .error _ => True
      | .ok account =>
          (t.credential.userSid = [] ∨ wcsicmpEq account.sidString t.credential.userSid = true) ∧
            match S.beginAuthentication account.sidString with
            | none => True
            | some challenge =>
                S.continues .begun = true ∧
                  if challenge.enforced then (chosenKey S).any (·.hasPin) = true
                  else S.isSidEnforced account.sidString = true)

/-- `Connect` gets past its first checks. -/
structure InUse (t : Tile) : Prop where
  retired : t.core.retired = false
  mode : t.core.mode ≠ .changePassword

/-- The exits of `Connect`. -/
inductive Connected (t : Tile) : Reply × Tile → Prop
  /-- the tile is retired, or asks for a new password -/
  | refused {end_ : Reply × Tile}
      (hRefused : t.core.retired = true ∨ t.core.mode = .changePassword)
      (hActs : end_.2.acts = t.acts) (hCore : end_.2.core = t.core) : Connected t end_
  | reset {end_ : Reply × Tile} (u : Tile) (hReset : WasReset u end_.2)
      (hUsername : u.core.username = t.core.username ∨
        ∃ account, Identifies S t account ∧ u.core.username = account.username)
      (hUserSid : u.core.userSid = t.core.userSid)
      (hRetired : u.core.retired = t.core.retired) (hMode : end_.2.core.mode ≠ .changePassword) : Connected t end_
  /-- no account is identified -/
  | missing {end_ : Reply × Tile} (hUse : InUse t) (hStalls : Stalls S t)
      (hNoReset : NoReset t end_.2) (hBegun : lastBegun end_.2.acts = lastBegun t.acts)
      (hCore : end_.2.core = t.core) : Connected t end_
  /-- no ceremony is begun for the account -/
  | blocked {end_ : Reply × Tile} (account : ResolvedAccount) (hUse : InUse t)
      (hStalls : Stalls S t) (hAccount : Identifies S t account) (hChallenge : t.core.challenge = none)
      (hNoReset : NoReset t end_.2) (hCore : end_.2.core = identified account t.core) :
      Connected t end_
  | pinStage {end_ : Reply × Tile} (account : ResolvedAccount)
      (challenge : AuthenticationChallenge) (hStalls : Stalls S t)
      (hUse : InUse t) (hAccount : Identifies S t account)
      (hNoReset : NoReset t end_.2)
      (hBegun : lastBegun end_.2.acts = some (account.sidString, some challenge))
      (hCore : end_.2.core =
        { identified account t.core with challenge := some challenge, mode := .fido }) :
      Connected t end_
  /-- the Broker and the published policy do not enforce the account -/
  | accepted {end_ : Reply × Tile} (account : ResolvedAccount)
      (challenge : AuthenticationChallenge) (older : List Act)
      (hUse : InUse t) (hChallenge : t.core.challenge = none)
      (hAccount : Identifies S t account)
      (hEnforced : challenge.enforced = false) (hStatus : end_.1.status = S_OK)
      (hNoReset : NoReset t end_.2)
      (hActs : end_.2.acts = .policyChecked account.sidString false ::
        .begun account.sidString (some challenge) :: older)
      (hCore : end_.2.core = { identified account t.core with mfaComplete := true }) :
      Connected t end_
  /-- a key without a PIN answered the new challenge -/
  | verifiedAtOnce {end_ : Reply × Tile} (account : ResolvedAccount)
      (challenge : AuthenticationChallenge) (older : List Act)
      (hUse : InUse t) (hAccount : Identifies S t account)
      (hStatus : end_.1.status = S_OK) (hNoReset : NoReset t end_.2)
      (hActs : end_.2.acts = .finished challenge.sessionId true :: older)
      (hBegun : lastBegun older = some (account.sidString, some challenge))
      (hCore : end_.2.core =
        { identified account t.core with mfaComplete := true, challenge := none }) :
      Connected t end_
  /-- the selected key answered the challenge that was waiting -/
  | verified {end_ : Reply × Tile} (challenge : AuthenticationChallenge)
      (hUse : InUse t) (hChallenge : t.core.challenge = some challenge)
      (hStatus : end_.1.status = S_OK)
      (hActs : end_.2.acts = .finished challenge.sessionId true :: t.acts)
      (hCore : end_.2.core = { t.core with mfaComplete := true, challenge := none }) :
      Connected t end_

/-- `Connect` without a challenge, from the account its user name resolved to. -/
theorem beginCeremony_cases {t : Tile} {account : ResolvedAccount}
    (hUse : InUse t) (hChallenge : t.core.challenge = none)
    (hAccount : Identifies S t account) (hEntered : S.continues .entered = true) :
    Connected S t (beginCeremony P S account
      (t.record (.resolved t.core.username (.ok account)))) := by
  -- the answers on which `Stalls` depends
  have hStalls : (match S.beginAuthentication account.sidString with
      | none => True
      | some challenge =>
          S.continues .begun = true ∧
            if challenge.enforced then (chosenKey S).any (·.hasPin) = true
            else S.isSidEnforced account.sidString = true) → Stalls S t := fun h => by
    refine ⟨hEntered, .inr (.inr ⟨hChallenge, ?_⟩)⟩
    rw [show resolveLocalAccount S.accounts t.credential.configuration.credential.username =
      .ok account from hAccount.resolved]
    exact ⟨hAccount.bound, h⟩
  unfold beginCeremony
  dsimp only
  generalize hReply : S.beginAuthentication account.sidString = reply at hStalls
  generalize hBegun : Tile.record _ _ = begun
  have hActs : begun.acts =
      .begun account.sidString reply :: .resolved t.core.username (.ok account) :: t.acts := by
    rw [← hBegun]
    rfl
  have hNoReset : NoReset t begun := ⟨[_, _], hActs, by simp⟩
  have hCore : begun.core = identified account t.core := by
    rw [← hBegun]
    rfl
  have hReset : ∀ {end_ : Reply × Tile}, WasReset begun end_.2 → Connected S t end_ := by
    intro end_ h
    refine .reset begun h (.inr ⟨account, hAccount, by rw [hCore]; rfl⟩) (by rw [hCore]; rfl)
      (by rw [hCore]; rfl) (h.mode_ne ?_)
    rw [hCore]
    exact hUse.mode
  cases reply with
  | none =>
      refine .blocked account hUse (hStalls trivial) hAccount hChallenge (hNoReset.same rfl) ?_
      rw [showStatus_core, hCore]
  | some challenge =>
      dsimp only at hStalls ⊢
      cases hCancelled : cancelled S .begun begun with
      | some t' => exact hReset (wasReset_cancelled S hCancelled)
      | none =>
          have hContinues := continues_of_not_cancelled S hCancelled
          dsimp only
          cases hEnforced : challenge.enforced with
          | false =>
              rw [hEnforced] at hStalls
              simp only [Bool.not_false, if_true]
              unfold acceptPassword
              cases hPolicy : S.isSidEnforced account.sidString with
              | true =>
                  refine .blocked account hUse (hStalls ⟨hContinues, by simp [hPolicy]⟩) hAccount
                    hChallenge (hNoReset.act (.policyChecked account.sidString true)
                      nofun rfl) ?_
                  exact (showStatus_core S _ _).trans hCore
              | false =>
                  refine .accepted account challenge _ hUse hChallenge hAccount hEnforced rfl
                    (hNoReset.act (.policyChecked account.sidString false) nofun rfl)
                    (congrArg _ hActs) ?_
                  exact (showStatus_core S _ _).trans (by rw [← hCore]; rfl)
          | true =>
              simp only [Bool.not_true, Bool.false_eq_true, if_false]
              cases chooseDevice_cases P S challenge begun with
              | reset h => exact hReset h
              | pinStage hPin hEndActs hEndCore =>
                  rw [hEnforced] at hStalls
                  refine .pinStage account challenge (hStalls ⟨hContinues, hPin⟩) hUse hAccount
                    (hNoReset.same hEndActs) ?_ (by rw [hEndCore, hCore])
                  rw [hEndActs, hActs]
                  rfl
              | completed hStatus hEndActs hEndCore =>
                  refine .verifiedAtOnce account challenge _ hUse hAccount hStatus
                    (hNoReset.act (.finished challenge.sessionId true) nofun hEndActs)
                    hEndActs ?_ (by rw [hEndCore, hCore])
                  rw [hActs]
                  rfl

/-- Every run of `Connect` takes one of its exits. -/
theorem connect_cases (t : Tile) : Connected S t (connect P S t) := by
  unfold connect
  split
  · rename_i hRetired
    exact .refused (.inl hRetired) rfl rfl
  rename_i hRetired
  cases hEntered : cancelled S .entered t with
  | some t' =>
      refine .reset t (wasReset_cancelled S hEntered) (.inl rfl) rfl rfl ?_
      unfold cancelled at hEntered
      split at hEntered
      · cases hEntered
      · cases hEntered
        simp
  | none =>
      have hContinues := continues_of_not_cancelled S hEntered
      dsimp only
      split
      · rename_i hMode
        exact .refused (.inr hMode) rfl rfl
      rename_i hMode
      have hUse : InUse t := ⟨Bool.eq_false_iff.mpr hRetired, hMode⟩
      split
      · rename_i hEmpty
        have hStalls : Stalls S t := by
          refine ⟨hContinues, ?_⟩
          simp only [Bool.or_eq_true, List.isEmpty_iff] at hEmpty
          exact hEmpty.elim .inl fun h => .inr (.inl h)
        refine .missing hUse hStalls ⟨[], rfl, nofun⟩ rfl ?_
        exact setStatus_core S _ _
      · cases hChallenge : t.credential.challenge with
        | none =>
            dsimp only
            unfold resolveIdentity
            dsimp only
            cases hFound : resolveLocalAccount S.accounts
                t.credential.configuration.credential.username with
            | error e =>
                have hStalls : Stalls S t := by
                  refine ⟨hContinues, .inr (.inr ⟨hChallenge, ?_⟩)⟩
                  rw [hFound]
                  trivial
                exact .missing hUse hStalls ⟨[_], rfl, by simp⟩ rfl (showStatus_core S _ _)
            | ok account =>
                dsimp only
                split
                · refine .reset t (((wasReset_fullReset S _).showStatus S _).of_core rfl)
                    (.inl rfl) rfl rfl ?_
                  rw [showStatus_core, fullReset_core]
                  nofun
                · rename_i hBound
                  refine beginCeremony_cases P S hUse hChallenge ⟨hFound, ?_⟩ hContinues
                  simp only [record_credential, Bool.and_eq_true, Bool.not_eq_true',
                    not_and, Bool.not_eq_false] at hBound
                  by_cases hUserSid : t.credential.userSid = []
                  · exact .inl hUserSid
                  · exact .inr (hBound (by simpa using hUserSid))
        | some challenge =>
            dsimp only
            cases verifyKey_cases P S challenge t with
            | reset hReset => exact .reset t hReset (.inl rfl) rfl rfl (hReset.mode_ne hUse.mode)
            | pinStage hPin => exact absurd hPin id
            | completed hStatus hActs hCore =>
                exact .verified challenge hUse hChallenge hStatus hActs hCore

/-! ## The other callbacks -/

/-- What the callbacks other than `Connect` do. -/
inductive Performed (t : Tile) : Callback → Reply × Tile → Prop
  /-- nothing that matters for a serialization -/
  | quiet {callback : Callback} {end_ : Reply × Tile}
      (hUnreported : ∀ status substatus, callback ≠ .reportResult status substatus true)
      (hActs : end_.2.acts = t.acts) (hCore : end_.2.core = t.core) : Performed t callback end_
  | reset {callback : Callback} {end_ : Reply × Tile}
      (hUsername : end_.2.core.username = t.core.username ∨
        ∃ text, end_.2.core.username = cstr text)
      (hUserSid : end_.2.core.userSid = t.core.userSid)
      (hRetired : end_.2.core.retired = t.core.retired ∨
        callback = .retire ∧ end_.2.core.retired = true)
      (hChallenge : end_.2.core.challenge = none) (hMfa : end_.2.core.mfaComplete = false)
      (hChange : end_.2.core.mode ≠ .changePassword ∨
        end_.2.core.passwordChangeAuthorized = false) : Performed t callback end_
  | expired {status substatus : NTSTATUS} {end_ : Reply × Tile}
      (hStatus : status ≠ STATUS_SUCCESS) (hExpired : mustChangePassword status substatus = true)
      (hActs : end_.2.acts = t.acts)
      (hCore : end_.2.core = { t.core with
        mode := .changePassword
        passwordChangeAuthorized := t.core.mfaComplete
        mfaComplete := false }) : Performed t (.reportResult status substatus true) end_

theorem performed_fullReset {t u : Tile} {callback : Callback} {reply : Reply}
    (hUsername : u.core.username = t.core.username) (hUserSid : u.core.userSid = t.core.userSid)
    (hRetired : u.core.retired = t.core.retired ∨ callback = .retire ∧ u.core.retired = true) :
    Performed t callback (reply, u.fullReset S) := by
  refine .reset (.inl ?_) ?_ ?_ ?_ ?_ (.inl ?_) <;> rw [fullReset_core]
  · exact hUsername
  · exact hUserSid
  · exact hRetired
  · nofun

theorem assign_core (field : FieldId) (target : CredentialState → CredentialState)
    (value : WString) (t : Tile) :
    (assign S field target value t).2.core = (setState target t.credential).core :=
  replaceFieldString_core S _ _ _

theorem setStringValue_cases (field : DWORD) (value : Option WString) (t : Tile) :
    Performed t (.setStringValue field value) (t.setStringValue S field value) := by
  have hQuiet : ∀ {end_ : Reply × Tile}, end_.2.acts = t.acts → end_.2.core = t.core →
      Performed t (.setStringValue field value) end_ := fun hActs hCore =>
    .quiet nofun hActs hCore
  unfold setStringValue
  split
  · rename_i text _
    dsimp only
    split
    · exact hQuiet rfl rfl
    · split
      · split
        · exact hQuiet rfl rfl
        · -- a different user name resets the tile first
          by_cases hSame : t.credential.configuration.credential.username = cstr text
          · rw [if_pos hSame]
            refine hQuiet rfl ((assign_core S _ _ _ t).trans ?_)
            rw [← hSame]
            rfl
          · rw [if_neg hSame]
            have hCore := assign_core S .username (fun s => { s with username := cstr text })
              (cstr text) (t.fullReset S)
            have hReset : (assign S .username (fun s => { s with username := cstr text })
                (cstr text) (t.fullReset S)).2.core =
                { (t.fullReset S).core with username := cstr text } := hCore
            rw [fullReset_core] at hReset
            refine .reset (.inr ⟨text, ?_⟩) ?_ (.inl ?_) ?_ ?_ (.inl ?_) <;> rw [hReset]
            nofun
      · exact hQuiet rfl (assign_core S _ _ _ t)
      · exact hQuiet rfl (assign_core S _ _ _ t)
      · exact hQuiet rfl (assign_core S _ _ _ t)
      · exact hQuiet rfl (assign_core S _ _ _ t)
      · exact hQuiet rfl rfl
  · exact hQuiet rfl rfl

theorem getStringValue_assign {field : DWORD} {id : FieldId} (hField : FieldId.ofIndex field = some id)
    (target : CredentialState → CredentialState) {value : WString} {t : Tile}
    (h : (assign S id target value t).1.status = S_OK)
    (hMemory : S.memory.duplicates none value = true) :
    (assign S id target value t).2.getStringValue S field = .ok value := by
  unfold assign replaceFieldString at h ⊢
  unfold getStringValue
  rw [hField]
  split_ifs at h ⊢
  · simp [hMemory]
  · have hRefused : E_OUTOFMEMORY = S_OK := h
    exact absurd hRefused (by decide)

/-- A text that `SetStringValue` took is the one that `GetStringValue` returns. -/
theorem getStringValue_setStringValue {field : DWORD} {value : WString} {t : Tile}
    (h : (t.setStringValue S field (some value)).1.status = S_OK)
    (hMemory : S.memory.duplicates none (cstr value) = true) :
    (t.setStringValue S field (some value)).2.getStringValue S field = .ok (cstr value) := by
  unfold setStringValue at h ⊢
  cases hField : FieldId.ofIndex field with
  | none =>
      have hRefused : E_INVALIDARG = S_OK := by rwa [hField] at h
      exact absurd hRefused (by decide)
  | some id =>
      rw [hField] at h
      dsimp only at h ⊢
      by_cases hRetired : t.credential.retired = true
      · have hRefused : E_UNEXPECTED = S_OK := by rwa [if_pos hRetired] at h
        exact absurd hRefused (by decide)
      rw [if_neg hRetired] at h ⊢
      cases id with
      | username =>
          dsimp only at h ⊢
          by_cases hBound : (!t.credential.userSid.isEmpty) = true
          · have hRefused : E_ACCESSDENIED = S_OK := by rwa [if_pos hBound] at h
            exact absurd hRefused (by decide)
          · rw [if_neg hBound] at h ⊢
            exact getStringValue_assign S hField _ h hMemory
      | password | fidoPin | newPass1 | newPass2 => exact getStringValue_assign S hField _ h hMemory
      | _ =>
          have hRefused : E_INVALIDARG = S_OK := h
          exact absurd hRefused (by decide)

theorem getSerialization_cases (outputs : Bool) (t : Tile) :
    Performed t (.getSerialization outputs) (t.getSerialization S outputs) := by
  unfold getSerialization
  split
  · exact .quiet nofun rfl rfl
  split
  · exact .quiet nofun rfl rfl
  split
  · split
    · exact .quiet nofun rfl rfl
    · exact .quiet nofun rfl (showStatus_core S _ t)
  split
  · exact .quiet nofun rfl rfl
  · split <;> exact .quiet nofun rfl rfl

theorem reportResult_cases (status substatus : NTSTATUS) (outputs : Bool) (t : Tile) :
    Performed t (.reportResult status substatus outputs)
      (t.reportResult S status substatus outputs) := by
  unfold reportResult
  cases outputs with
  | false => exact .quiet nofun rfl rfl
  | true =>
      simp only [Bool.not_true, Bool.false_eq_true, if_false]
      generalize hCleared : t.change clearPin = cleared
      have hActs : cleared.acts = t.acts := by rw [← hCleared]; rfl
      have hCore : cleared.core = t.core := by rw [← hCleared]; rfl
      split
      · -- the logon succeeded
        have hEnd : (((cleared.resetMfa S).change fun c =>
            setState clearSecrets { c with passwordChangeAuthorized := false }).change
              (emptyPasswordFields S)).core =
            { (cleared.resetMfa S).core with passwordChangeAuthorized := false } :=
          emptyPasswordFields_core S _
        rw [resetMfa_core, hCore] at hEnd
        refine .reset (.inl ?_) ?_ (.inl ?_) ?_ ?_ (.inr ?_) <;> rw [hEnd]
      split
      · -- a new password is required
        rename_i hStatus hExpired
        refine .expired hStatus hExpired hActs ?_
        rw [showStatus_core, setMode_core, ← hCore]
        rfl
      · have hEnd : (((((cleared.resetMfa S).setMode S .usernamePassword).change
            (setState clearSecrets)).change (emptyPasswordFields S)).showStatus S
              (resultText status substatus)).core =
            ((cleared.resetMfa S).setMode S .usernamePassword).core := by
          rw [showStatus_core]
          exact emptyPasswordFields_core S _
        rw [setMode_core, resetMfa_core, hCore] at hEnd
        refine .reset (.inl ?_) ?_ (.inl ?_) ?_ ?_ (.inl ?_) <;> rw [hEnd]
        nofun

/-- Every callback but `Connect` is quiet, resets the tile, or asks for a new
password. -/
theorem perform_cases {callback : Callback} (hConnect : callback ≠ .connect) (t : Tile) :
    Performed t callback (t.perform P S callback) := by
  cases callback with
  | setSelected => exact .quiet nofun rfl rfl
  | setDeselected => exact performed_fullReset S rfl rfl (.inl rfl)
  | setStringValue field value => exact setStringValue_cases S field value t
  | connect => exact absurd rfl hConnect
  | disconnect => exact performed_fullReset S rfl rfl (.inl rfl)
  | getSerialization outputs => exact getSerialization_cases S outputs t
  | reportResult status substatus outputs => exact reportResult_cases S status substatus outputs t
  | retire => exact performed_fullReset S rfl rfl (.inr ⟨rfl, rfl⟩)
  | fullReset => exact performed_fullReset S rfl rfl (.inl rfl)

/-- No callback binds the tile to another SID. -/
theorem perform_userSid (t : Tile) (callback : Callback) :
    (t.perform P S callback).2.core.userSid = t.core.userSid := by
  by_cases hConnect : callback = .connect
  · subst hConnect
    show (t.connect P S).2.core.userSid = _
    cases connect_cases P S t with
    | reset u hReset hUsername hUserSid hRetired hMode => exact hReset.userSid.trans hUserSid
    | _ => simp only [*, identified]
  · cases perform_cases P S hConnect t with
    | reset hUsername hUserSid hRetired hChallenge hMfa hChange => exact hUserSid
    | _ => simp only [*]

/-- Only `Retire` retires a tile, for good. -/
theorem perform_retired (t : Tile) (callback : Callback) :
    (t.perform P S callback).2.core.retired = t.core.retired ∨
      callback = .retire ∧ (t.perform P S callback).2.core.retired = true := by
  by_cases hConnect : callback = .connect
  · subst hConnect
    refine .inl ?_
    show (t.connect P S).2.core.retired = _
    cases connect_cases P S t with
    | reset u hReset hUsername hUserSid hRetired hMode => exact hReset.retired.trans hRetired
    | _ => simp only [*, identified]
  · cases perform_cases P S hConnect t with
    | reset hUsername hUserSid hRetired hChallenge hMfa hChange => exact hRetired
    | _ => exact .inl (by simp only [*])

/-! ## The first tile -/

theorem foldlM_core {α : Type} {write : CCredential → α → Except HRESULT CCredential}
    (hWrite : ∀ c a c', write c a = .ok c' → c'.core = c.core) {values : List α}
    {c c' : CCredential} (h : values.foldlM write c = .ok c') : c'.core = c.core := by
  induction values generalizing c with
  | nil =>
      cases h
      rfl
  | cons value rest ih =>
      rw [List.foldlM_cons] at h
      cases hFirst : write c value with
      | error e =>
          rw [hFirst] at h
          cases h
      | ok first =>
          rw [hFirst] at h
          exact (ih h).trans (hWrite c value first hFirst)

theorem writeString_core (c : CCredential) (value : FieldId × WString) (c' : CCredential)
    (h : writeString S c value = .ok c') : c'.core = c.core := by
  unfold writeString at h
  dsimp only at h
  split at h
  · cases h
  · cases h
    exact replaceFieldString_core S _ _ _

theorem describeField_core (c : CCredential) (field : FieldId) (c' : CCredential)
    (h : describeField S c field = .ok c') : c'.core = c.core := by
  unfold describeField at h
  split at h
  · exact writeString_core S _ _ _ h
  · cases h

/-- A credential that `Initialize` made has authorized nothing. -/
theorem initializeCredential_core {scenario : UsageScenario}
    {username domain password userSid : WString} {c : CCredential}
    (h : initializeCredential S scenario username domain password userSid = .ok c) :
    c.core = {
      mode := .usernamePassword
      username := cstr username
      domain := cstr domain
      challenge := none
      userSid := cstr userSid
      sid := []
      retired := false
      mfaComplete := false
      passwordChangeAuthorized := false } := by
  unfold initializeCredential at h
  cases hDescribed : FieldId.all.foldlM (describeField S)
      ({ configuration := { scenario } } : CCredential) with
  | error e =>
      rw [hDescribed] at h
      cases h
  | ok described =>
      rw [hDescribed] at h
      have hFirst := foldlM_core (describeField_core S) hDescribed
      simp only [bind, Except.bind] at h
      split at h
      · cases h
      · rename_i written hWritten
        have hWrittenCore := foldlM_core (writeString_core S) hWritten
        split at h
        · cases h
        · cases h
          rw [CCredential.setMode_core, hWrittenCore]
          exact congrArg (fun k : Core => { k with
            mode := .usernamePassword, username := cstr username, domain := cstr domain,
            userSid := cstr userSid }) hFirst

end Tile
end WindowsFidoLogon
