import WindowsFidoLogon.Broker.AccountChanges
import WindowsFidoLogon.Store.Stored

/-!
# Every vault change is authorized

When only the Broker writes the vault files, and intact files can be read, the accounts
in store change in the five ways only.  Each change of an account is traced here to the
request that made it and the checks it passed; where the request acted on a session, to
the earlier request that opened this session, and the password that was validated then.
-/

namespace WindowsFidoLogon
namespace BrokerService

open Program Text LocalAccount LocalCredentialStore Environment Handling

variable {P : Platform} {E : Environment}

/-- When intact files can be read, every load returns the accounts in store. -/
def intactReads (hT : P.Transcodes) (hProtects : P.Protects) (hParses : P.ParsesDumps)
    (hReads : ReadsSucceed E) : Regime P E where
  Held m A := A = storedAccounts P m.disk
  Good _ := True
  Steady := False
  Unsure := True
  Spoils _ := False
  good_of_later _ h := h
  held_quiet h A hA := by rw [hA, h.disk]
  held_synchronize v m := by
    refine (meets_synchronizeEnforcedRegistry v m).mono fun o n h A hA => ?_
    rw [hA, h.1]
  held_load m := by
    refine (storedAccounts_loadOrCreate hT hProtects hParses hReads m).mono ?_
    rintro o n ⟨hSame, hVault⟩ _
    exact ⟨fun A hA => hA.trans hSame, fun v hv => (hVault v hv).symm⟩
  held_save v m := by
    refine (storedAccounts_save hT hProtects hParses hReads v m).mono ?_
    rintro o n hSaved _ A rfl
    rcases hSaved with hOld | ⟨hNew, hText⟩
    · exact .inl hOld
    · exact .inr ⟨.inl trivial, .inr ⟨hNew, hText⟩⟩
  steady _ _ _ h := h.elim

/-! ## What an event does to one account -/

/-- The event does not touch the vault file from outside. -/
def Event.Internal (e : Event) : Prop :=
  ∀ content, e ≠ .tamper content

/-- What each change of the account of `s` keeps, unless there is a reason `J`, an event
keeps, unless there is this reason. -/
theorem step_keeps (hT : P.Transcodes) (hProtects : P.Protects) (hParses : P.ParsesDumps)
    (hReads : ReadsSucceed E) {b : Broker} {e : Event} (hInternal : e.Internal)
    {F : Option AccountRecord → Prop} {J : Prop} {s : WString}
    (hText : ∀ a, F (some a) → F (some (transcodedAccount P a)))
    (hName : ∀ a name, F (some a) → F (some { a with username := name }))
    (hGone : Vanished P E b.machine.tick (step P E b e).machine.tick s → F none ∨ J)
    (hChange : ∀ pipe input caller request Done x y, e = .request pipe input →
      openRequest P pipe input = .ok (caller, request) →
      AccountChange P E ⟨b, caller, request⟩ Done (step P E b e).machine F s x y →
      F x → F y ∨ J)
    (hBefore : TableWith s F (storedAccounts P b.machine.disk)) :
    TableWith s F (storedAccounts P (step P E b e).machine.disk) ∨ J := by
  have hHeld : ∀ A, (intactReads hT hProtects hParses hReads).Held b.machine A → TableWith s F A := by
    rintro A rfl
    exact hBefore
  cases e with
  | restart =>
      have hMoved : (intactReads hT hProtects hParses hReads).Moved (Handling.startUp b) False
          b.machine (refreshLocalAccounts P E b.machine).2 :=
        Regime.moved_refreshLocalAccounts (le_refl _)
      exact (hMoved.keeps (Std.Refl.refl _) trivial
        (Regime.keeps_startUp hText hName hGone fun v h => h.elim) hHeld).imp_left
          fun hAfter => hAfter _ rfl
  | tamper content => exact absurd rfl (hInternal content)
  | request pipe input =>
      cases hOpen : openRequest P pipe input with
      | error what =>
          left
          show TableWith s F (storedAccounts P (serve P E pipe input b).2.machine.disk)
          rw [(serve_refused hOpen).1]
          exact hBefore
      | ok opened =>
          obtain ⟨caller, request⟩ := opened
          have hConducted : Conducted P E ⟨b, caller, request⟩ _ _ :=
            handle_conducts (P := P) (E := E) ⟨b, caller, request⟩
          rw [step_machine hOpen] at hChange ⊢
          refine ((intactReads hT hProtects hParses hReads).keeps hConducted trivial
            (Regime.keeps_account hText
              (fun x y => hChange pipe input caller request _ x y rfl hOpen) fun v h => h.elim)
            hHeld).imp_left fun hAfter => hAfter _ rfl

/-- Distinct SIDs remain distinct. -/
theorem distinct_step (hT : P.Transcodes) (hProtects : P.Protects) (hParses : P.ParsesDumps)
    (hReads : ReadsSucceed E) {b : Broker} {e : Event} (hInternal : e.Internal)
    (hDistinct : DistinctSids (storedAccounts P b.machine.disk)) :
    DistinctSids (storedAccounts P (step P E b e).machine.disk) :=
  ((step_keeps hT hProtects hParses hReads hInternal (F := fun _ => True) (J := False) (s := [])
    (fun _ _ => trivial) (fun _ _ _ => trivial) (fun _ => .inl trivial)
    (fun _ _ _ _ _ _ _ _ _ _ _ => .inl trivial)
    ⟨hDistinct, trivial⟩).resolve_right id).distinct

/-! ## The reasons for a change -/

/-- The event opened the session with the identifier `id`: it is the operation `op`, sent by
the owner of an account with the right password, and the session is for this account; a
removal, for the credential that the request names. -/
structure BegunWithPassword (P : Platform) (E : Environment) (b : Broker) (e : Event) (op id : Bytes)
    (session : Session) : Prop where
  opened : OpenedBy P E b e id session
  validated : ∃ pipe input caller request, e = .request pipe input ∧
    openRequest P pipe input = .ok (caller, request) ∧
    operation ⟨b, caller, request⟩ = .ok op ∧
    Validated P E ⟨b, caller, request⟩ session.targetSid (step P E b e).machine ∧
    (session.kind = .removalAuthorization →
      stringField request (text "credentialId") = .ok session.credentialToRemove)

/-- The request, which the Broker handles after the run `es`, names a session of this kind,
and the operation `op` opened it less than 120 seconds before; no request in between has
taken it; and the caller is the one who opened it, or LocalSystem. -/
def Redeems (P : Platform) (E : Environment) (b₀ : Broker) (es : List Event) (e : Event)
    (caller : Caller) (request : Json) (op : Bytes) (kind : SessionKind) (session : Session) : Prop :=
  ∃ id pre opener post t t', stringField request (text "sessionId") = .ok id ∧
    findSession id (run P E b₀ es).sessions = some session ∧ session.kind = kind ∧
    es = pre ++ opener :: post ∧
    BegunWithPassword P E (run P E b₀ pre) opener op id session ∧
    InTime P E b₀ pre opener ⟨run P E b₀ es, caller, request⟩
      (run P E b₀ (es ++ [e])).machine t t' ∧
    (∀ mid e' rest, post = mid ++ e' :: rest → ¬ Takes P E (run P E b₀ (pre ++ opener :: mid)) e' id) ∧
    (caller.isSystem = true ∨ isSameSid caller.sid session.callerSid = true)

/-- A credential record but for its counter. -/
def uncounted (credential : CredentialRecord) : CredentialRecord :=
  { credential with signCount := 0 }

/-- After the run `es`, the event is a `commit_registration` that redeems a session of a
`begin_registration` for `s`, and the credential is the one that the attestation in the
request registers for it. -/
def Registers (P : Platform) (E : Environment) (b₀ : Broker) (es : List Event) (e : Event)
    (s : WString) (credential : CredentialRecord) : Prop :=
  ∃ pipe input caller request session registration createdAt, e = .request pipe input ∧
    openRequest P pipe input = .ok (caller, request) ∧
    operation ⟨run P E b₀ es, caller, request⟩ = .ok (text "commit_registration") ∧
    Redeems P E b₀ es e caller request (text "begin_registration") .registration session ∧
    isSameSid session.targetSid s = true ∧
    (∃ attestationObject clientDataJson,
      stringField request (text "attestationObject") = .ok attestationObject ∧
      stringField request (text "clientDataJson") = .ok clientDataJson ∧
      FidoVerifier.verifyRegistration P session.challenge session.rpId session.origin
        attestationObject clientDataJson = .ok registration) ∧
    uncounted credential = uncounted (newCredential session registration createdAt)

/-- The account has the credential, whatever its counter. -/
def Has (account : Option AccountRecord) (credential : CredentialRecord) : Prop :=
  ∃ a ∈ account, uncounted credential ∈ a.credentials.map uncounted

def isEnforced (account : Option AccountRecord) : Bool :=
  account.any (·.enforced)

theorem map_uncounted_setSignCount (id : Bytes) (counter : UInt32) (cs : List CredentialRecord) :
    (setSignCount id counter cs).map uncounted = cs.map uncounted := by
  induction cs with
  | nil => rfl
  | cons c cs ih =>
      unfold setSignCount
      split_ifs
      · rfl
      · rw [List.map_cons, List.map_cons, ih]

/-- A credential that is not the one erased remains. -/
theorem mem_map_eraseCredential {a : AccountRecord} {id : Bytes} {c : CredentialRecord}
    (hMem : uncounted c ∈ a.credentials.map uncounted) (hOther : c.credentialId ≠ id) :
    uncounted c ∈ (eraseCredential id a).credentials.map uncounted := by
  obtain ⟨d, hd, hSame⟩ := List.mem_map.mp hMem
  have hId : (uncounted d).credentialId = (uncounted c).credentialId := by rw [hSame]
  rw [← hSame]
  refine List.mem_map_of_mem ((List.mem_eraseP_of_neg ?_).mpr hd)
  simpa [show d.credentialId = c.credentialId from hId] using hOther

variable {H : Handling} {Done : Prop} {n : Machine} {s : WString} {x y : Option AccountRecord}

/-- A credential is gone only after a removal, or with the whole account. -/
theorem AccountChange.has {c : CredentialRecord}
    (h : AccountChange P E H Done n (fun x => Has x c) s x y) (hHas : Has x c) :
    Has y c ∨ (∃ sid, MayRemove P E H sid c.credentialId n ∧ Done ∧ isSameSid sid s = true) ∨
      Vanished P E H.before.machine.tick n.tick s := by
  obtain ⟨a, ha, hMem⟩ := hHas
  cases h with
  | other => exact .inl ⟨a, ha, hMem⟩
  | rename =>
      cases ha
      exact .inl ⟨_, rfl, hMem⟩
  | vanish _ hVanished => exact .inr (.inr hVanished)
  | count _ _ _ _ _ hKnown _ _ =>
      obtain ⟨b, hb, hMem'⟩ := hKnown
      cases hb
      refine .inl ⟨_, rfl, ?_⟩
      rw [map_uncounted_setSignCount]
      exact hMem'
  | @register _ session registration createdAt base _ _ _ hBase =>
      cases ha
      obtain rfl : base = a := hBase
      refine .inl ⟨_, rfl, ?_⟩
      rw [List.map_append]
      exact List.mem_append_left _ hMem
  | @remove b sid credentialId hMay hDone hSame _ =>
      cases ha
      by_cases hId : c.credentialId = credentialId
      · rw [hId]
        exact .inr (.inl ⟨sid, hMay, hDone, hSame⟩)
      · exact .inl ⟨_, rfl, mem_map_eraseCredential hMem hId⟩
  | enforce =>
      cases ha
      exact .inl ⟨_, rfl, hMem⟩

/-- The enforcement of an account is another one only after it was set, or with the
whole account. -/
theorem AccountChange.isEnforced {enforced : Bool}
    (h : AccountChange P E H Done n (fun x => BrokerService.isEnforced x = enforced) s x y)
    (hx : BrokerService.isEnforced x = enforced) :
    BrokerService.isEnforced y = enforced ∨
      (∃ sid, MayEnforce P E H sid (!enforced) n ∧ Done ∧ isSameSid sid s = true) ∨
      Vanished P E H.before.machine.tick n.tick s := by
  cases h with
  | other => exact .inl hx
  | rename => exact .inl hx
  | vanish _ hVanished => exact .inr (.inr hVanished)
  | count _ _ _ _ _ hKnown _ _ => exact .inl hKnown
  | @register _ session registration createdAt base _ _ _ hBase =>
      left
      rw [← hx, hBase]
      cases x <;> rfl
  | remove => exact .inl hx
  | @enforce a sid enabled hMay hDone hSame =>
      -- setting it to what it was is no change
      by_cases hSet : enabled = enforced
      · exact .inl hSet
      · rw [Bool.eq_not_of_ne hSet] at hMay
        exact .inr (.inl ⟨sid, hMay, hDone, hSame⟩)

theorem AccountChange.isSome (h : AccountChange P E H Done n (fun x => x.isSome = true) s x y)
    (hSome : x.isSome = true) :
    y.isSome = true ∨ Vanished P E H.before.machine.tick n.tick s := by
  cases h with
  | other => exact .inl hSome
  | vanish _ hVanished => exact .inr hVanished
  | _ => exact .inl rfl

/-! ## Over a whole run -/

theorem distinct_run (hT : P.Transcodes) (hProtects : P.Protects) (hParses : P.ParsesDumps)
    (hReads : ReadsSucceed E) {b₀ : Broker}
    (hDistinct : DistinctSids (storedAccounts P b₀.machine.disk)) {es : List Event}
    (hInternal : ∀ e ∈ es, e.Internal) :
    DistinctSids (storedAccounts P (run P E b₀ es).machine.disk) :=
  History.run_keeps (I := fun b : Broker => DistinctSids (storedAccounts P b.machine.disk))
    (C := fun _ e => Event.Internal e)
    (fun _ _ hBefore he => distinct_step hT hProtects hParses hReads he hBefore) hDistinct
    (History.along_of_forall hInternal)

section Reasons

variable {b₀ : Broker} {es : List Event} {e : Event} {pipe : PipeClient} {input : Bytes}
  {caller : Caller} {request : Json}

end Reasons

section Changes

variable (hT : P.Transcodes) (hProtects : P.Protects) (hParses : P.ParsesDumps)
  (hReads : ReadsSucceed E) {b₀ : Broker}
  (hDistinct : DistinctSids (storedAccounts P b₀.machine.disk)) {es : List Event}
  (hInternal : ∀ e ∈ es, e.Internal) {e : Event} (he : e.Internal) {s : WString}
include hT hProtects hParses hReads hDistinct hInternal he

end Changes

section Example

open Reference

/-- `alice` as an elevated administrator. -/
def adminPipe : PipeClient := { tokenSid := some aliceSid, elevatedAdmin := true }

theorem distinct_keyBroker :
    DistinctSids (storedAccounts keyPlatform keyBroker.machine.disk) := by
  show ((storedAccounts keyPlatform keyBroker.machine.disk).map sidKey).Nodup
  decide +kernel

/-- `alice` has a key, and her account is not enforced. -/
def oneKey : Broker :=
  { machine := machine (some (vault [alice false [keyCredential (text "AAECAwQFBgcICQoLDA0ODw")]])) none }

end Example

end BrokerService
end WindowsFidoLogon
