import WindowsFidoLogon.Credential.Ceremony

/-!
# What a terminal event leaves behind

A tile is `Cleared` when no authorization, no ceremony and no secret is left in it,
its password fields included.  `FullReset` clears a tile whatever its state, and so
does a successful `ReportResult`.  After a failed one the authorization of a password
change is left as it was, and each of the two relies on memory for the empty texts of
the fields.
-/

namespace WindowsFidoLogon

open Text LocalAccount

namespace CCredential

/-- Nothing is left of a ceremony or of what the user entered. -/
structure Cleared (c : CCredential) : Prop where
  mfaComplete : c.mfaComplete = false
  passwordChangeAuthorized : c.passwordChangeAuthorized = false
  challenge : c.challenge = none
  devices : c.devices = []
  selectedDevice : c.selectedDevice = none
  secrets : clearSecrets c.configuration.credential = c.configuration.credential
  fields : ∀ field : FieldId, field.isPasswordText = true → c.strings field = []

variable (S : Surroundings)

/-! ## Password fields -/

/-- Only the texts of the fields may change. -/
theorem replaceFieldString_eq (field : FieldId) (source : WString) (c : CCredential) :
    ∃ strings, (replaceFieldString S field source c).2 = { c with strings } ∧
      ∀ other, other ≠ field → strings other = c.strings other := by
  unfold replaceFieldString
  split
  · exact ⟨_, rfl, fun other h => Function.update_of_ne h _ _⟩
  · exact ⟨c.strings, rfl, fun _ _ => rfl⟩

theorem setMode_eq (mode : Mode) (c : CCredential) :
    ∃ strings, (setMode S mode c).2 = { c with
        configuration := { c.configuration with mode }
        states := fieldStates mode c.userSid
        strings } ∧
      ∀ other, other ≠ FieldId.submitButton → strings other = c.strings other :=
  replaceFieldString_eq S .submitButton _ _

/-- What a callback writes to a field that is not a password field leaves a tile
cleared. -/
theorem Cleared.replaceFieldString {c : CCredential} (h : Cleared c) {field : FieldId}
    (hField : field.isPasswordText = false) (source : WString) :
    Cleared (replaceFieldString S field source c).2 := by
  obtain ⟨strings, hEq, hOther⟩ := replaceFieldString_eq S field source c
  rw [hEq]
  refine { h with fields := fun other hOther' => ?_ }
  have hNe : other ≠ field := by
    rintro rfl
    rw [hField] at hOther'
    cases hOther'
  exact (hOther other hNe).trans (h.fields other hOther')

theorem Cleared.setStatus {c : CCredential} (h : Cleared c) (text : WString) :
    Cleared (setStatus S text c) :=
  h.replaceFieldString S rfl text

theorem Cleared.setMode {c : CCredential} (h : Cleared c) (mode : Mode) :
    Cleared (setMode S mode c).2 :=
  Cleared.replaceFieldString S (c := { c with
    configuration := { c.configuration with mode }, states := fieldStates mode c.userSid })
    { h with } rfl _

/-! ## Resets -/

theorem resetMfa_fields (c : CCredential) : ∃ strings, resetMfa S c =
    { (setState (fun s => { s with fidoPin := [] }) c) with
      strings, mfaComplete := false, challenge := none, devices := [], selectedDevice := none } ∧
    strings .fidoPin = [] ∧
    ∀ field : FieldId, field.isPasswordText = true → field ≠ .fidoPin →
      strings field = c.strings field := by
  unfold resetMfa setStatus
  obtain ⟨strings, hEq, hOther⟩ := replaceFieldString_eq S .smallText [] (clearPin
    { c with mfaComplete := false, challenge := none, devices := [], selectedDevice := none })
  rw [hEq]
  refine ⟨strings, rfl, ?_, fun field hField hPin => ?_⟩
  · rw [hOther .fidoPin (by decide)]
    simp [clearPin, zeroString]
  · rw [hOther field (by rintro rfl; cases hField)]
    exact Function.update_of_ne hPin _ _

/-- `FullReset` clears a tile. -/
theorem cleared_fullReset (c : CCredential) : Cleared (fullReset S c) := by
  obtain ⟨strings, hEq, hPin, -⟩ := resetMfa_fields S c
  unfold fullReset
  refine Cleared.setStatus S (Cleared.setMode S ?_ _) _
  rw [hEq]
  refine ⟨rfl, rfl, rfl, rfl, rfl, rfl, fun field hField => ?_⟩
  cases field with
  | password => rfl
  | fidoPin => exact hPin
  | newPass1 => rfl
  | newPass2 => rfl
  | _ => cases hField

/-! ## Reports -/

/-- There is memory for the empty text of a field, or it is empty already. -/
def Empties (c : CCredential) (field : FieldId) : Prop :=
  S.memory.duplicates (some field) [] = true ∨ c.strings field = []

/-- Writing the empty text. -/
theorem replaceFieldString_empty (field : FieldId) (c : CCredential) :
    (replaceFieldString S field [] c).2.strings field = [] ↔ Empties S c field := by
  unfold replaceFieldString Empties
  split
  · rename_i hMemory
    exact iff_of_true (Function.update_self _ _ _) (.inl hMemory)
  · rename_i hMemory
    rw [or_iff_right hMemory]

/-- Each of the three fields is emptied as far as there is memory, the PIN is not
touched, and nothing else changes. -/
theorem emptyPasswordFields_eq (c : CCredential) :
    ∃ strings, Tile.emptyPasswordFields S c = { c with strings } ∧
      strings .fidoPin = c.strings .fidoPin ∧
      (strings .password = [] ↔ Empties S c .password) ∧
      (strings .newPass1 = [] ↔ Empties S c .newPass1) ∧
      (strings .newPass2 = [] ↔ Empties S c .newPass2) := by
  unfold Tile.emptyPasswordFields
  have hPassword := replaceFieldString_empty S .password c
  obtain ⟨first, hFirst, hFirstOther⟩ := replaceFieldString_eq S .password [] c
  rw [hFirst] at hPassword ⊢
  have hNew1 := replaceFieldString_empty S .newPass1 { c with strings := first }
  obtain ⟨second, hSecond, hSecondOther⟩ :=
    replaceFieldString_eq S .newPass1 [] { c with strings := first }
  rw [hSecond] at hNew1 ⊢
  have hNew2 := replaceFieldString_empty S .newPass2 { c with strings := second }
  obtain ⟨third, hThird, hThirdOther⟩ :=
    replaceFieldString_eq S .newPass2 [] { c with strings := second }
  rw [hThird] at hNew2 ⊢
  dsimp only at hPassword hNew1 hNew2 hSecondOther hThirdOther
  refine ⟨third, rfl, ?_, ?_, ?_, ?_⟩
  · rw [hThirdOther _ (by decide), hSecondOther _ (by decide), hFirstOther _ (by decide)]
  · rw [hThirdOther _ (by decide), hSecondOther _ (by decide)]
    exact hPassword
  · rw [hThirdOther _ (by decide), hNew1]
    unfold Empties
    rw [show ({ c with strings := first } : CCredential).strings .newPass1 = c.strings .newPass1
      from hFirstOther _ (by decide)]
  · rw [hNew2]
    unfold Empties
    rw [show ({ c with strings := second } : CCredential).strings .newPass2 = c.strings .newPass2
      from (hSecondOther _ (by decide)).trans (hFirstOther _ (by decide))]

/-- The three password fields can be emptied. -/
def EmptiesPasswords (c : CCredential) : Prop :=
  Empties S c .password ∧ Empties S c .newPass1 ∧ Empties S c .newPass2

theorem emptiesPasswords_congr {c d : CCredential}
    (h : ∀ field : FieldId, field.isPasswordText = true → field ≠ .fidoPin →
      d.strings field = c.strings field) : EmptiesPasswords S d ↔ EmptiesPasswords S c := by
  unfold EmptiesPasswords Empties
  rw [h .password rfl (by decide), h .newPass1 rfl (by decide), h .newPass2 rfl (by decide)]

/-- Emptying the fields of a tile whose ceremony was reset and whose secrets were
cleared. -/
theorem cleared_emptyPasswordFields_iff {c : CCredential} (hMfa : c.mfaComplete = false)
    (hChallenge : c.challenge = none) (hDevices : c.devices = [])
    (hSelected : c.selectedDevice = none)
    (hSecrets : clearSecrets c.configuration.credential = c.configuration.credential)
    (hPin : c.strings .fidoPin = []) :
    Cleared (Tile.emptyPasswordFields S c) ↔
      c.passwordChangeAuthorized = false ∧ EmptiesPasswords S c := by
  obtain ⟨strings, hEq, hPinKept, hPassword, hNew1, hNew2⟩ := emptyPasswordFields_eq S c
  rw [hEq]
  constructor
  · intro h
    exact ⟨h.passwordChangeAuthorized, hPassword.mp (h.fields .password rfl),
      hNew1.mp (h.fields .newPass1 rfl), hNew2.mp (h.fields .newPass2 rfl)⟩
  · rintro ⟨hChange, hEmptyPassword, hEmptyNew1, hEmptyNew2⟩
    refine ⟨hMfa, hChange, hChallenge, hDevices, hSelected, hSecrets, fun field hField => ?_⟩
    cases field with
    | password => exact hPassword.mpr hEmptyPassword
    | fidoPin => exact hPinKept.trans hPin
    | newPass1 => exact hNew1.mpr hEmptyNew1
    | newPass2 => exact hNew2.mpr hEmptyNew2
    | _ => cases hField

theorem cleared_setStatus_iff (text : WString) (c : CCredential) :
    Cleared (setStatus S text c) ↔ Cleared c := by
  refine ⟨fun h => ?_, fun h => h.setStatus S text⟩
  obtain ⟨strings, hEq, hOther⟩ := replaceFieldString_eq S .smallText text c
  unfold CCredential.setStatus at h
  rw [hEq] at h
  refine { h with fields := fun field hField => ?_ }
  rw [← hOther field (by rintro rfl; cases hField)]
  exact h.fields field hField

end CCredential

namespace Tile

open History CCredential

variable (P : Platform) (S : Surroundings)

/-- The condition under which a report leaves the tile cleared. -/
theorem reportResult_cleared_iff {status substatus : NTSTATUS}
    (hReport : status = STATUS_SUCCESS ∨ mustChangePassword status substatus = false) (t : Tile) :
    Cleared (t.reportResult S status substatus true).2.credential ↔
      (status = STATUS_SUCCESS ∨ t.credential.passwordChangeAuthorized = false) ∧
        EmptiesPasswords S t.credential := by
  obtain ⟨strings, hEq, hPin, hOther⟩ := resetMfa_fields S (clearPin t.credential)
  have hStrings : ∀ field : FieldId, field.isPasswordText = true → field ≠ .fidoPin →
      strings field = t.credential.strings field := fun field hField hNe =>
    (hOther field hField hNe).trans (Function.update_of_ne hNe _ _)
  unfold reportResult
  simp only [Bool.not_true, Bool.false_eq_true, if_false]
  by_cases hSuccess : status = STATUS_SUCCESS
  · rw [if_pos hSuccess]
    show Cleared (emptyPasswordFields S (setState clearSecrets
      { CCredential.resetMfa S (clearPin t.credential) with
        passwordChangeAuthorized := false })) ↔ _
    rw [hEq, cleared_emptyPasswordFields_iff S rfl rfl rfl rfl rfl hPin,
      emptiesPasswords_congr S hStrings]
    exact ⟨fun h => ⟨.inl hSuccess, h.2⟩, fun h => ⟨rfl, h.2⟩⟩
  · have hOrdinary := hReport.resolve_left hSuccess
    rw [if_neg hSuccess, hOrdinary]
    simp only [Bool.false_eq_true, if_false]
    show Cleared (setStatus S _ (emptyPasswordFields S (setState clearSecrets
      (CCredential.setMode S .usernamePassword
        (CCredential.resetMfa S (clearPin t.credential))).2))) ↔ _
    rw [cleared_setStatus_iff, hEq]
    obtain ⟨labels, hMode, hLabels⟩ := setMode_eq S .usernamePassword
      { setState (fun s => { s with fidoPin := [] }) (clearPin t.credential) with
        strings, mfaComplete := false, challenge := none, devices := [], selectedDevice := none }
    rw [hMode, cleared_emptyPasswordFields_iff S rfl rfl rfl rfl rfl
      ((hLabels .fidoPin (by decide)).trans hPin), emptiesPasswords_congr S (c := t.credential)
      fun field hField hNe =>
        (hLabels field (by rintro rfl; cases hField)).trans (hStrings field hField hNe)]
    exact ⟨fun h => ⟨.inr h.1, h.2⟩, fun h => ⟨h.1.resolve_left hSuccess, h.2⟩⟩

/-! ## Retired tiles -/

theorem cleared_tile_fullReset (t : Tile) : Cleared (t.fullReset S).credential :=
  cleared_fullReset S t.credential

/-- A report that asks for a new password leaves a cleared tile cleared. -/
theorem reportResult_cleared {status substatus : NTSTATUS} {outputs : Bool} {t : Tile}
    (h : Cleared t.credential) :
    Cleared (t.reportResult S status substatus outputs).2.credential := by
  cases outputs with
  | false => exact h
  | true =>
      by_cases hReport : status = STATUS_SUCCESS ∨ mustChangePassword status substatus = false
      · rw [reportResult_cleared_iff S hReport]
        exact ⟨.inr h.passwordChangeAuthorized, .inr (h.fields .password rfl),
          .inr (h.fields .newPass1 rfl), .inr (h.fields .newPass2 rfl)⟩
      · rw [not_or, Bool.not_eq_false] at hReport
        unfold reportResult
        simp only [Bool.not_true, Bool.false_eq_true, if_false, if_neg hReport.1, hReport.2,
          if_true]
        have hPin : Cleared (clearPin t.credential) := by
          have hSecrets := congrArg (fun s : CredentialState => { s with fidoPin := [] }) h.secrets
          refine { h with secrets := hSecrets, fields := fun field hField => ?_ }
          show Function.update t.credential.strings .fidoPin [] field = []
          by_cases hNe : field = .fidoPin
          · rw [hNe, Function.update_self]
          · rw [Function.update_of_ne hNe]
            exact h.fields field hField
        refine Cleared.setStatus S (Cleared.setMode S ?_ _) _
        exact { hPin with mfaComplete := rfl, passwordChangeAuthorized := hPin.mfaComplete }

/-- A callback that is not refused for a retired tile clears it. -/
theorem perform_cleared_of_retired {t : Tile} (hRetired : t.core.retired = true)
    (h : Cleared t.credential) (callback : Callback) :
    Cleared (t.perform P S callback).2.credential := by
  have hUsed : t.credential.retired = true := hRetired
  cases callback with
  | setSelected => exact h
  | setDeselected => exact cleared_tile_fullReset S t
  | setStringValue field value =>
      show Cleared (t.setStringValue S field value).2.credential
      unfold setStringValue
      simp only [hUsed, if_true]
      split <;> exact h
  | connect =>
      show Cleared (t.connect P S).2.credential
      unfold connect
      rw [if_pos hUsed]
      exact h
  | disconnect => exact cleared_tile_fullReset S t
  | getSerialization outputs =>
      show Cleared (t.getSerialization S outputs).2.credential
      unfold getSerialization
      simp only [hUsed, if_true]
      split <;> exact h
  | reportResult status substatus outputs => exact reportResult_cleared S h
  | retire => exact cleared_tile_fullReset S _
  | fullReset => exact cleared_tile_fullReset S t

/-- A retired tile stays cleared. -/
theorem cleared_of_retired {t : Tile} (hStart : Fresh t) (es : List (Callback × Surroundings))
    (hRetired : (run (step P) t es).core.retired = true) :
    Cleared (run (step P) t es).credential := by
  refine run_keeps (I := fun u : Tile => u.core.retired = true → Cleared u.credential)
    (C := fun _ _ => True) ?_ ?_ (along_of_forall fun _ _ => trivial) hRetired
  · intro u e hKept _ hEnd
    by_cases hBefore : u.core.retired = true
    · exact perform_cleared_of_retired P e.2 hBefore (hKept hBefore) e.1
    · rcases perform_retired P e.2 u e.1 with hSame | ⟨hRetire, -⟩
      · exact absurd (hSame ▸ hEnd) hBefore
      · show Cleared (u.perform P e.2 e.1).2.credential
        rw [hRetire]
        exact cleared_tile_fullReset e.2 _
  · intro hInitial
    obtain ⟨S, scenario, username, domain, password, userSid, hFresh⟩ := hStart
    have hCore : t.core = _ := initializeCredential_core S hFresh
    rw [hCore] at hInitial
    cases hInitial

/-! ## Cancellation -/

theorem cleared_of_cancelled {point : QueryPoint} {t t' : Tile}
    (h : cancelled S point t = some t') : Cleared t'.credential := by
  unfold cancelled at h
  split at h
  · cases h
  · cases h
    exact cleared_tile_fullReset S _

/-- The tile is cleared if the reply reports cancellation. -/
def StopsCleared (end_ : Reply × Tile) : Prop :=
  end_.1.status = hresultFromWin32 ERROR_CANCELLED → Cleared end_.2.credential

/-- A reply with another status. -/
theorem stopsCleared_of_ne {reply : Reply} {t : Tile}
    (h : reply.status ≠ hresultFromWin32 ERROR_CANCELLED) : StopsCleared (reply, t) :=
  fun hStatus => absurd hStatus h

theorem stopsCleared_cancelled {point : QueryPoint} {t t' : Tile}
    (h : cancelled S point t = some t') : StopsCleared (cancelledReply, t') :=
  fun _ => cleared_of_cancelled S h

theorem stopsCleared_rejectKey (id : UiTextId) (t : Tile) : StopsCleared (rejectKey S id t) :=
  stopsCleared_of_ne (show E_ACCESSDENIED ≠ hresultFromWin32 ERROR_CANCELLED by decide)

theorem verifyKey_stopsCleared (challenge : AuthenticationChallenge) (t : Tile) :
    StopsCleared (verifyKey P S challenge t) := by
  unfold verifyKey
  split
  · exact stopsCleared_rejectKey S _ t
  dsimp only
  split
  · rename_i hSigned
    exact stopsCleared_cancelled S hSigned
  split
  · exact stopsCleared_rejectKey S _ _
  split
  · exact stopsCleared_rejectKey S _ _
  split
  · rename_i hFinished
    exact stopsCleared_cancelled S hFinished
  · exact stopsCleared_of_ne (show S_OK ≠ hresultFromWin32 ERROR_CANCELLED by decide)

theorem enterPin_stopsCleared (challenge : AuthenticationChallenge) (selected : Nat) (t : Tile) :
    StopsCleared (enterPin P S challenge selected t) := by
  unfold enterPin
  dsimp only
  split
  · exact stopsCleared_of_ne (show S_OK ≠ hresultFromWin32 ERROR_CANCELLED by decide)
  · exact verifyKey_stopsCleared P S challenge _

theorem chooseDevice_stopsCleared (challenge : AuthenticationChallenge) (t : Tile) :
    StopsCleared (chooseDevice P S challenge t) := by
  unfold chooseDevice
  dsimp only
  split
  · exact stopsCleared_of_ne (show hresultFromWin32 ERROR_DEVICE_NOT_AVAILABLE ≠
      hresultFromWin32 ERROR_CANCELLED by decide)
  · exact enterPin_stopsCleared P S challenge 0 _
  split
  · rename_i hSelected
    exact stopsCleared_cancelled S hSelected
  split
  · exact stopsCleared_rejectKey S _ _
  · exact enterPin_stopsCleared P S challenge _ _

theorem acceptPassword_stopsCleared (sid : WString) (t : Tile) :
    StopsCleared (acceptPassword S sid t) := by
  unfold acceptPassword
  dsimp only
  split
  · exact stopsCleared_of_ne (show E_ACCESSDENIED ≠ hresultFromWin32 ERROR_CANCELLED by decide)
  · exact stopsCleared_of_ne (show S_OK ≠ hresultFromWin32 ERROR_CANCELLED by decide)

theorem beginCeremony_stopsCleared (account : ResolvedAccount) (t : Tile) :
    StopsCleared (beginCeremony P S account t) := by
  unfold beginCeremony
  dsimp only
  split
  · exact stopsCleared_of_ne (show E_ACCESSDENIED ≠ hresultFromWin32 ERROR_CANCELLED by decide)
  split
  · rename_i hBegun
    exact stopsCleared_cancelled S hBegun
  split
  · exact acceptPassword_stopsCleared S _ _
  · exact chooseDevice_stopsCleared P S _ _

/-- The user name has to be resolved, and the lookup fails.  `Connect` then returns the
error of the lookup as it is. -/
def LookupFails (t : Tile) : Prop :=
  S.continues .entered = true ∧ t.credential.challenge = none ∧
    ∃ e, resolveLocalAccount S.accounts t.credential.configuration.credential.username = .error e

/-- A `Connect` that reports cancellation leaves the tile cleared, unless the status is
the error of a failed lookup: that exit keeps the password. -/
theorem connect_cleared_iff {t : Tile}
    (hStatus : (t.connect P S).1.status = hresultFromWin32 ERROR_CANCELLED) :
    Cleared (t.connect P S).2.credential ↔ ¬ LookupFails S t := by
  unfold connect at hStatus ⊢
  split at hStatus
  · exact absurd (show E_UNEXPECTED = hresultFromWin32 ERROR_CANCELLED from hStatus) (by decide)
  rename_i hUsed
  rw [if_neg hUsed]
  cases hEntered : cancelled S .entered t with
  | some t' =>
      refine iff_of_true (cleared_of_cancelled S hEntered) fun hFails => ?_
      rw [cancelled, if_pos hFails.1] at hEntered
      cases hEntered
  | none =>
      have hContinues := continues_of_not_cancelled S hEntered
      rw [hEntered] at hStatus
      dsimp only at hStatus ⊢
      split at hStatus
      · split at hStatus
        · exact absurd (show S_OK = hresultFromWin32 ERROR_CANCELLED from hStatus) (by decide)
        · exact absurd (show E_ACCESSDENIED = hresultFromWin32 ERROR_CANCELLED from hStatus)
            (by decide)
      rename_i hMode
      rw [if_neg hMode]
      split at hStatus
      · exact absurd (show E_INVALIDARG = hresultFromWin32 ERROR_CANCELLED from hStatus)
          (by decide)
      rename_i hEntries
      rw [if_neg hEntries]
      cases hChallenge : t.credential.challenge with
      | some challenge =>
          rw [hChallenge] at hStatus
          refine iff_of_true (verifyKey_stopsCleared P S challenge t hStatus) fun hFails => ?_
          cases hChallenge.symm.trans hFails.2.1
      | none =>
          rw [hChallenge] at hStatus
          dsimp only at hStatus ⊢
          unfold resolveIdentity at hStatus ⊢
          dsimp only at hStatus ⊢
          cases hFound : resolveLocalAccount S.accounts
              t.credential.configuration.credential.username with
          | error e =>
              refine iff_of_false (fun hCleared => hEntries ?_)
                (not_not.mpr ⟨hContinues, hChallenge, e, hFound⟩)
              have hSecrets := ((cleared_setStatus_iff S _ _).mp hCleared).secrets
              rw [show t.credential.configuration.credential.password = [] from
                (congrArg CredentialState.password hSecrets).symm]
              exact Bool.or_true _
          | ok account =>
              rw [hFound] at hStatus
              dsimp only at hStatus ⊢
              have hResolves : ¬ LookupFails S t := by
                rintro ⟨-, -, e, hError⟩
                rw [hFound] at hError
                cases hError
              split at hStatus
              · exact absurd (show E_ACCESSDENIED = hresultFromWin32 ERROR_CANCELLED
                  from hStatus) (by decide)
              · rename_i hBound
                rw [if_neg hBound]
                exact iff_of_true (beginCeremony_stopsCleared P S account _ hStatus) hResolves

/-! ## Terminal events -/

/-- The events that end the use of a tile: the resets, a `Connect` that reports
cancellation, another user name on an anonymous tile, and a report (with both of its
pointers) of a result that does not ask for a new password. -/
inductive Terminal (t : Tile) : Callback → Prop
  | setDeselected : Terminal t .setDeselected
  | disconnect : Terminal t .disconnect
  | retire : Terminal t .retire
  | cancelled (hStatus : (t.connect P S).1.status = hresultFromWin32 ERROR_CANCELLED) :
      Terminal t .connect
  | otherUser (field : DWORD) (name : WString) (hField : FieldId.ofIndex field = some .username)
      (hAnonymous : t.core.userSid = []) (hName : t.core.username ≠ cstr name) :
      Terminal t (.setStringValue field (some name))
  | report (status substatus : NTSTATUS)
      (hReport : status = STATUS_SUCCESS ∨ mustChangePassword status substatus = false) :
      Terminal t (.reportResult status substatus true)

/-- The condition under which a terminal event leaves the tile cleared.  A report of a
failed logon does not withdraw the authorization of a password change, each report
needs memory for the empty texts, and a failed lookup keeps the password. -/
def Clears (t : Tile) : Callback → Prop
  | .connect => ¬ LookupFails S t
  | .reportResult status _ _ =>
      (status = STATUS_SUCCESS ∨ t.credential.passwordChangeAuthorized = false) ∧
        EmptiesPasswords S t.credential
  | _ => True

theorem cleared_assign_username {t : Tile} (h : Cleared t.credential) (value : WString) :
    Cleared (assign S .username (fun s => { s with username := value }) value t).2.credential := by
  have hNamed : Cleared (setState (fun s => { s with username := value }) t.credential) := by
    have hSecrets := congrArg (fun s : CredentialState => { s with username := value }) h.secrets
    exact { h with secrets := hSecrets }
  exact hNamed.replaceFieldString S rfl value

/-- A terminal event of any run leaves the tile cleared exactly under `Clears`. -/
theorem terminal_cleared_iff {t : Tile} (hStart : Fresh t) (es : List (Callback × Surroundings))
    {callback : Callback} (hTerminal : Terminal P S (run (step P) t es) callback) :
    Cleared ((run (step P) t es).perform P S callback).2.credential ↔
      Clears S (run (step P) t es) callback := by
  have hRetiredCleared := cleared_of_retired P hStart es
  generalize run (step P) t es = u at hTerminal hRetiredCleared ⊢
  cases hTerminal with
  | setDeselected => exact iff_of_true (cleared_tile_fullReset S u) trivial
  | disconnect => exact iff_of_true (cleared_tile_fullReset S u) trivial
  | retire => exact iff_of_true (cleared_tile_fullReset S _) trivial
  | cancelled hStatus => exact connect_cleared_iff P S hStatus
  | otherUser field name hField hAnonymous hName =>
      refine iff_of_true ?_ trivial
      show Cleared (u.setStringValue S field (some name)).2.credential
      have hUnbound : u.credential.userSid = [] := hAnonymous
      have hOther : u.credential.configuration.credential.username ≠ cstr name := hName
      unfold setStringValue
      simp only [hField, hUnbound, hOther, List.isEmpty_nil, Bool.not_true, Bool.false_eq_true,
        if_false]
      split
      · rename_i hRetired
        exact hRetiredCleared hRetired
      · exact cleared_assign_username S (cleared_tile_fullReset S u) (cstr name)
  | report status substatus hReport => exact reportResult_cleared_iff S hReport u

/-! ## Examples -/

/-- `STATUS_PASSWORD_RESTRICTION` -/
def STATUS_PASSWORD_RESTRICTION : NTSTATUS := 0xC000006C

/-- The refused logon of an anonymous tile. -/
theorem terminal_cleared_example :
    Cleared ((run (step (Reference.platform {})) anonymous enters).perform (Reference.platform {})
      (calm none) (.reportResult STATUS_WRONG_PASSWORD 0 true)).2.credential :=
  (terminal_cleared_iff (Reference.platform {}) (calm none) fresh_anonymous enters
    (.report STATUS_WRONG_PASSWORD 0 (.inr (by decide)))).mpr
      ⟨.inr (by decide +kernel), .inl rfl, .inl rfl, .inl rfl⟩

/-- A logon is authorized, and its password has expired. -/
def expires : List (Callback × Surroundings) :=
  enters ++ [(.reportResult STATUS_PASSWORD_EXPIRED 0 true, calm none)]

/-- The change of the password is refused, and its authorization stays. -/
theorem terminal_cleared_counterexample :
    ¬ ∀ (P : Platform) (S : Surroundings) (t : Tile) (es : List (Callback × Surroundings))
        (callback : Callback), Fresh t → Terminal P S (run (step P) t es) callback →
      Cleared ((run (step P) t es).perform P S callback).2.credential := by
  intro h
  have hCleared := h (Reference.platform {}) (calm none) anonymous expires
    (.reportResult STATUS_PASSWORD_RESTRICTION 0 true) fresh_anonymous
    (.report STATUS_PASSWORD_RESTRICTION 0 (.inr (by decide)))
  have hKept : ((run (step (Reference.platform {})) anonymous expires).perform
      (Reference.platform {}) (calm none)
        (.reportResult STATUS_PASSWORD_RESTRICTION 0 true)).2.core.passwordChangeAuthorized =
          true := by decide +kernel
  exact Bool.noConfusion (hCleared.passwordChangeAuthorized.symm.trans hKept)

end Tile
end WindowsFidoLogon
