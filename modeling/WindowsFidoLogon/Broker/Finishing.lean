import WindowsFidoLogon.Broker.Run

/-!
# The requests that present an assertion

`finish_auth` and `finish_remove` refresh and load the store, take the session that they
name, and verify an assertion for it; the one is over then, the other goes on to remove a
credential.  What a request was answered says that it came to the point at which both
verify, `AtVerification`, and what it found there; conversely what happens there says how
the request ends.
-/

namespace WindowsFidoLogon
namespace BrokerService

open Program Text LocalAccount LocalCredentialStore Environment Handling

variable {P : Platform} {E : Environment}

/-! ## Up to the session -/

/-- The request is what its text says. -/
theorem openRequest_parses {pipe : PipeClient} {input : Bytes} {caller : Caller}
    {request : Json} (h : openRequest P pipe input = .ok (caller, request)) :
    P.parse input = .ok request := by
  unfold openRequest at h
  split_ifs at h
  obtain ⟨request', hParse, h⟩ := except_bind_eq_ok.mp h
  obtain ⟨version, _, h⟩ := except_bind_eq_ok.mp h
  split_ifs at h
  obtain ⟨caller', _, h⟩ := except_bind_eq_ok.mp h
  cases h
  exact hParse

/-- A request that replied could refresh the store. -/
theorem handle_returned {b b' : Broker} {caller : Caller} {request j : Json} {op : Bytes}
    (hOp : request.valueOr Json.getString (text "op") [] = .ok op)
    (h : handle P E caller request b = (.returned j, b')) :
    ∃ m, refreshLocalAccounts P E b.machine = (.returned (.ok ()), m) ∧
      dispatch P E caller request op (b.setMachine m) = (.returned j, b') := by
  unfold handle at h
  obtain ⟨r, c, hFirst, h⟩ := bind_returned_iff.mp h
  obtain ⟨m, hRefresh, rfl⟩ := zoom_returned_iff.mp hFirst
  cases r with
  | error e => cases h
  | ok _ =>
      refine ⟨m, hRefresh, ?_⟩
      dsimp only at h
      rwa [hOp, ofExcept_ok, pure_bind] at h

theorem handle_of_refreshed {b : Broker} {caller : Caller} {request : Json} {op : Bytes} {m : Machine}
    (hRefresh : refreshLocalAccounts P E b.machine = (.returned (.ok ()), m))
    (hOp : request.valueOr Json.getString (text "op") [] = .ok op) :
    handle P E caller request b = dispatch P E caller request op (b.setMachine m) := by
  unfold handle
  rw [bind_returned (onMachine_returned hRefresh)]
  dsimp only
  rw [hOp, ofExcept_ok, pure_bind]

/-- What the operations that verify an assertion do once the store is loaded. -/
def finishing (P : Platform) (E : Environment) (caller : Caller) (request : Json) :
    SessionKind → BrokerCall Json
  | .removalAuthorization => finishRemove P E caller request
  | _ => finishAuth P E caller request

theorem dispatch_of_loaded {b : Broker} {caller : Caller} {request : Json} {op : Bytes}
    {kind : SessionKind} {n : Machine} {v : Vault} (hOp : Verifying op kind)
    (hLoad : loadOrCreate P E b.machine = (.returned (.ok v), n)) :
    dispatch P E caller request op b = finishing P E caller request kind (b.setMachine n) := by
  unfold dispatch
  cases hOp with
  | auth =>
      rw [if_neg (by decide), bind_returned (onMachine_returned hLoad)]
      rfl
  | remove =>
      rw [if_neg (by decide), bind_returned (onMachine_returned hLoad)]
      rfl

theorem dispatch_returned {b b' : Broker} {caller : Caller} {request j : Json} {op : Bytes}
    {kind : SessionKind} (hOp : Verifying op kind)
    (h : dispatch P E caller request op b = (.returned j, b')) :
    ∃ n v, loadOrCreate P E b.machine = (.returned (.ok v), n) ∧
      finishing P E caller request kind (b.setMachine n) = (.returned j, b') := by
  have hLoaded : ∃ n v, loadOrCreate P E b.machine = (.returned (.ok v), n) := by
    unfold dispatch at h
    rw [if_neg (show op ≠ text "status" by cases hOp <;> decide)] at h
    obtain ⟨r, c, hFirst, h⟩ := bind_returned_iff.mp h
    obtain ⟨n, hLoad, -⟩ := zoom_returned_iff.mp hFirst
    cases r with
    | error e => cases h
    | ok v => exact ⟨n, v, hLoad⟩
  obtain ⟨n, v, hLoad⟩ := hLoaded
  exact ⟨n, v, hLoad, dispatch_of_loaded hOp hLoad ▸ h⟩

/-! ## The verification -/

variable {b b₁ : Broker} {caller : Caller} {request value : Json} {kind : SessionKind}
  {session : Session}

/-- A removal that had its assertion accepted has prepared its transaction. -/
theorem Handling.AtVerification.prepared_removal {n : Machine}
    (h : AtVerification P E ⟨b, caller, request⟩ .removalAuthorization session value b₁)
    (hVerified : verifySessionAssertion P E session value b₁.machine = (.returned (.ok ()), n)) :
    Relation.ReflTransGen (Prepares P E ⟨b, caller, request⟩) b.machine n := by
  have hStep := Prepares.verify h
  rw [hVerified] at hStep
  exact h.prepared.tail hStep

/-- The request, up to its verification. -/
theorem Handling.AtVerification.handle_eq
    (h : AtVerification P E ⟨b, caller, request⟩ kind session value b₁) :
    ∃ c, enterSession E request caller kind c = (.returned session, b₁) ∧
      handle P E caller request b = finishing P E caller request kind c := by
  obtain ⟨op, hOp, hField⟩ := h.operation
  obtain ⟨c, ⟨m, n, v, hRefresh, hLoad, rfl⟩, hEnter⟩ := h.took
  refine ⟨b.setMachine n, hEnter, ?_⟩
  rw [handle_of_refreshed hRefresh hField]
  exact dispatch_of_loaded hOp hLoad

/-- An authentication ends with the verification. -/
theorem Handling.AtVerification.handle_auth {n : Machine}
    (h : AtVerification P E ⟨b, caller, request⟩ .authentication session value b₁)
    (hVerified : verifySessionAssertion P E session value b₁.machine = (.returned (.ok ()), n)) :
    handle P E caller request b = (.returned okReply, b₁.setMachine n) := by
  obtain ⟨c, hEnter, hHandle⟩ := h.handle_eq
  rw [hHandle]
  show finishAuth P E caller request c = _
  unfold finishAuth
  rw [bind_returned hEnter, h.assertion, ofExcept_ok, pure_bind,
    bind_returned (onMachine_returned hVerified)]
  rfl

/-- A removal goes on. -/
theorem Handling.AtVerification.handle_remove {n : Machine}
    (h : AtVerification P E ⟨b, caller, request⟩ .removalAuthorization session value b₁)
    (hVerified : verifySessionAssertion P E session value b₁.machine = (.returned (.ok ()), n)) :
    (handle P E caller request b).2.machine =
      (removeCredential P E session.targetSid session.credentialToRemove n).2 := by
  obtain ⟨c, hEnter, hHandle⟩ := h.handle_eq
  rw [hHandle]
  show (finishRemove P E caller request c).2.machine = _
  unfold finishRemove
  rw [bind_returned hEnter, h.assertion, ofExcept_ok, pure_bind,
    bind_returned (onMachine_returned hVerified), ofExcept_ok, pure_bind, bind_apply]
  unfold onMachine
  rw [zoom_apply]
  rw [Broker.setMachine_machine]
  rcases removeCredential P E session.targetSid session.credentialToRemove n with
    ⟨(e | _) | what | _, n'⟩ <;> rfl

/-- What both operations go through before they end with `rest`. -/
theorem verified_of_returned {c b' : Broker} {j : Json} {rest : Session → BrokerCall Json}
    (h : (do
      let session ← enterSession E request caller kind
      let assertion ← Program.ofExcept (request.at_ (text "assertion"))
      let verified ← onMachine (verifySessionAssertion P E session assertion)
      Program.ofExcept verified
      rest session : BrokerCall Json) c = (.returned j, b')) :
    ∃ session b₁ n value, enterSession E request caller kind c = (.returned session, b₁) ∧
      request.at_ (text "assertion") = .ok value ∧
      verifySessionAssertion P E session value b₁.machine = (.returned (.ok ()), n) := by
  obtain ⟨session, b₁, hEnter, h⟩ := bind_returned_iff.mp h
  obtain ⟨value, c, hRead, h⟩ := bind_returned_iff.mp h
  obtain ⟨hValue, rfl⟩ := ofExcept_returned_iff.mp hRead
  obtain ⟨r, c, hRun, h⟩ := bind_returned_iff.mp h
  obtain ⟨n, hVerify, rfl⟩ := zoom_returned_iff.mp hRun
  obtain ⟨_, c, hOk, _⟩ := bind_returned_iff.mp h
  obtain ⟨rfl, _⟩ := ofExcept_returned_iff.mp hOk
  exact ⟨session, b₁, n, value, hEnter, hValue, hVerify⟩

/-- A request that replied has verified its assertion. -/
theorem atVerification_of_returned {b' : Broker} {j : Json} {op : Bytes} (hOp : Verifying op kind)
    (hField : request.valueOr Json.getString (text "op") [] = .ok op)
    (h : handle P E caller request b = (.returned j, b')) :
    ∃ session value b₁ n, AtVerification P E ⟨b, caller, request⟩ kind session value b₁ ∧
      verifySessionAssertion P E session value b₁.machine = (.returned (.ok ()), n) := by
  obtain ⟨m, hRefresh, hDispatch⟩ := handle_returned hField h
  obtain ⟨n, v, hLoad, hFinish⟩ := dispatch_returned hOp hDispatch
  have hBegin : ∃ session b₁ n₁ value, enterSession E request caller kind (b.setMachine n) =
      (.returned session, b₁) ∧ request.at_ (text "assertion") = .ok value ∧
        verifySessionAssertion P E session value b₁.machine = (.returned (.ok ()), n₁) := by
    cases hOp with
    | auth => exact verified_of_returned hFinish
    | remove => exact verified_of_returned hFinish
  obtain ⟨session, b₁, n₁, value, hEnter, hValue, hVerify⟩ := hBegin
  exact ⟨session, value, b₁, n₁,
    ⟨⟨op, hOp, hField⟩, ⟨_, ⟨m, n, v, hRefresh, hLoad, rfl⟩, hEnter⟩, hValue⟩, hVerify⟩

end BrokerService
end WindowsFidoLogon
