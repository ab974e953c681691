import WindowsFidoLogon.Broker.Survival
import WindowsFidoLogon.Store.PolicyReaders

/-!
# When enforcement fails closed

`begin_auth` lets an account through without a challenge if the vault it loads does not
enforce it and the published policy does not list it.  The policy is published anew by the
refresh at the start of the same request, so where the loads of this request agree, the
policy says nothing that the vault does not say.

Main definitions:

* `SetsEnforcement` — a request that sets the enforcement of a SID was answered with `ok`;
* `LetThrough` — a `begin_auth` is answered without a challenge;
* `Guarded` — what may happen to the store in between.

The main result is `begin_auth_fails_closed`.
-/

namespace WindowsFidoLogon
namespace BrokerService

open Program Text LocalAccount LocalCredentialStore Environment Handling

variable {P : Platform} {E : Environment}

/-! ## The events -/

/-- The event sets the enforcement of `s` and is answered with `ok`. -/
def SetsEnforcement (P : Platform) (E : Environment) (b : Broker) (e : Event) (s : WString)
    (enabled : Bool) : Prop :=
  ∃ caller request, AnsweredOk P E b e caller request ∧
    (⟨b, caller, request⟩ : Handling).operation = .ok (text "set_enforcement") ∧
    wideField P request (text "sid") = .ok s ∧
    (request.at_ (text "enabled") >>= Json.getBool) = .ok enabled

/-- The reply of `begin_auth` without a challenge. -/
def unenforcedReply : Json :=
  .obj [(text "enforced", .bool false), (text "ok", .bool true)]

/-- The event is a `begin_auth` for `s` that is answered without a challenge. -/
def LetThrough (P : Platform) (E : Environment) (b : Broker) (e : Event) (s : WString) : Prop :=
  ∃ pipe input caller request sid, e = .request pipe input ∧
    openRequest P pipe input = .ok (caller, request) ∧
    (⟨b, caller, request⟩ : Handling).operation = .ok (text "begin_auth") ∧
    wideField P request (text "sid") = .ok sid ∧ isSameSid sid s = true ∧
    (handle P E caller request b).1 = .returned unenforcedReply

theorem SetsEnforcement.acknowledges {b : Broker} {e : Event} {s : WString} {enabled : Bool}
    (h : SetsEnforcement P E b e s enabled) :
    Acknowledges P E b e s (.enforced enabled) (step P E b e).machine := by
  obtain ⟨caller, request, hAnswered, hOp, hSid, hEnabled⟩ := h
  have hTransaction : text "set_enforcement" ∈ transactions := by decide
  obtain ⟨s', change, m, hAcknowledged, hMem⟩ :=
    acknowledges_of_answeredOk hAnswered hOp hTransaction
  have hAgain := hAcknowledged
  obtain ⟨pipe, input, output, rfl, hOpen, -⟩ := hAnswered
  cases hAcknowledged with
  | enforcement hOther hMay _ =>
      obtain ⟨pipe', input', output', hEvent, hOpen', -⟩ := hOther
      cases hEvent
      obtain ⟨rfl, rfl⟩ := Prod.mk.inj (Except.ok.inj (hOpen.symm.trans hOpen'))
      obtain ⟨_, _, _, _, _, hSid', -⟩ := hMay.validated
      obtain rfl := Except.ok.inj (hSid.symm.trans hSid')
      obtain rfl := Except.ok.inj (hEnabled.symm.trans hMay.enabled)
      exact hAgain
  | removal =>
      rw [VaultChange.operations] at hMem
      exact absurd hMem (by decide)
  | registration =>
      rw [VaultChange.operations] at hMem
      exact absurd hMem (by decide)
  | assertion =>
      rw [VaultChange.operations] at hMem
      exact absurd hMem (by decide)

/-- Only a request to end it that is answered with `ok`, or the end of the account, undoes
an enforcement. -/
theorem not_undoes_enforced {b : Broker} {e : Event} {s : WString}
    (hNot : ∀ sid, isSameSid sid s = true → ¬ SetsEnforcement P E b e sid false)
    (hThere : ¬ Vanished P E b.machine.tick (step P E b e).machine.tick s) :
    ¬ Undoes P E b e s (.enforced true) := by
  rintro (⟨caller, request, hAnswered, sid, hMay, hSame⟩ | hVanished)
  · obtain ⟨_, _, _, _, _, hSid, -⟩ := hMay.validated
    exact hNot sid hSame ⟨caller, request, hAnswered, hMay.operation, hSid, hMay.enabled⟩
  · exact hThere hVanished

/-! ## The cross-check -/

/-- What the published policy of a vault says of a SID. -/
theorem isSidEnforced_published {v : Vault} {m : Machine} (hPolicy : m.registry = publishedPolicy v)
    (hRead : E.registryReadFails m.tick = false) (sid : WString) :
    isSidEnforced E sid m = (.returned (legible v sid), m.next) := by
  have hList : readEnforcedSids E m = (.returned (legibleSids v), m.next) := by
    unfold readEnforcedSids
    rw [hRead, if_neg Bool.false_ne_true, hPolicy]
    exact Prod.ext (congrArg Outcome.returned (getMultiSZ_enforcedSidsValue v)) rfl
  unfold isSidEnforced
  rw [bind_returned hList]
  rfl

theorem isSidEnforced_effects (sid : WString) (m : Machine) :
    (isSidEnforced E sid m).2 = m.next := by
  unfold isSidEnforced readEnforcedSids
  rfl

/-- A vault without a NUL in an enforced SID is listed in full. -/
theorem legible_of_accountOf {v : Vault} {s sid : WString} (hValid : isVaultValid P v = true)
    (hClean : ∀ a ∈ v.accounts, a.enforced = true → (0 : UInt16) ∉ a.sid)
    (hEnforced : isEnforced (accountOf s v.accounts) = true) (hSame : isSameSid sid s = true) :
    legible v sid = true := by
  cases hAccount : accountOf s v.accounts with
  | none =>
      rw [hAccount] at hEnforced
      cases hEnforced
  | some a =>
      rw [hAccount] at hEnforced
      have hMem : a ∈ v.accounts := mem_of_accountOf hAccount
      have hList : legibleSids v = enforcedSids v := by
        refine (legibleSids_eq_iff hValid).mpr fun listed hListed => ?_
        obtain ⟨a', ha', hOn, rfl⟩ := mem_enforcedSids.mp hListed
        exact hClean a' ha' hOn
      unfold legible
      rw [hList]
      refine List.any_eq_true.mpr ⟨a.sid, mem_enforcedSids.mpr ⟨a, hMem, hEnforced, rfl⟩, ?_⟩
      exact wcsicmpEq_trans (sid_of_accountOf hAccount) (wcsicmpEq_symm hSame)

/-- What is enforced after a refresh was enforced before, under the same SID. -/
theorem Refreshed.enforced {lo hi : Nat} {A A' : List AccountRecord} (h : Refreshed P E lo hi A A') :
    ∀ a' ∈ A', ∃ a ∈ A, a'.sid = a.sid ∧ a'.enforced = a.enforced := by
  induction h with
  | nil => exact nofun
  | drop _ _ ih =>
      intro a' ha'
      obtain ⟨a, ha, hSame⟩ := ih a' ha'
      exact ⟨a, List.mem_cons_of_mem _ ha, hSame⟩
  | keep name _ ih =>
      intro a' ha'
      rcases List.mem_cons.mp ha' with rfl | ha'
      · exact ⟨_, List.mem_cons_self, rfl, rfl⟩
      · obtain ⟨a, ha, hSame⟩ := ih a' ha'
        exact ⟨a, List.mem_cons_of_mem _ ha, hSame⟩

/-- A refresh that went through published the policy of what it made of its vault. -/
theorem published_of_refresh {m n : Machine}
    (h : refreshLocalAccounts P E m = (.returned (.ok ()), n)) :
    ∃ v k w, loadOrCreate P E m = (.returned (.ok v), k) ∧ Later k n ∧
      Refreshed P E m.tick n.tick v.accounts w.accounts ∧
      (isVaultValid P v = true → isVaultValid P w = true) ∧ n.registry = publishedPolicy w := by
  unfold refreshLocalAccounts at h
  obtain ⟨r, k, hLoad, h⟩ := bind_returned_iff.mp h
  have hFirst : Later m k := Moves.of_eq moves_loadOrCreate hLoad
  cases r with
  | error e => cases h
  | ok v =>
      dsimp only at h
      obtain ⟨r, l, hLoop, h⟩ := bind_returned_iff.mp h
      rcases r with e | ⟨A', changed⟩
      · cases h
      obtain ⟨hAccounts, hSame, hQuiet⟩ := refreshed_of_refreshAccounts hLoop
      dsimp only at h
      split_ifs at h with hChanged
      · obtain ⟨hPolicy, content, ⟨hValid, -⟩, -⟩ := ((meets_save_saved _ l).of_eq h).saved rfl
        have hLast : Later l n := Moves.of_eq (steps_later.save _) h
        refine ⟨v, k, _, hLoad, hQuiet.later.trans hLast, ?_, fun _ => hValid, hPolicy⟩
        exact hAccounts.mono hFirst.tick_le hLast.tick_le
      · -- nothing changed, and the policy was published again
        obtain rfl := hSame (by simpa using hChanged)
        obtain ⟨-, -, -, hPolicy⟩ := (meets_synchronizeEnforcedRegistry _ l).of_eq h
        have hLast : Later l n := Moves.of_eq (steps_later.synchronizeEnforcedRegistry _) h
        refine ⟨v, k, v, hLoad, hQuiet.later.trans hLast, ?_, id, hPolicy⟩
        exact hAccounts.mono hFirst.tick_le hLast.tick_le

/-! ## A reply without a challenge -/

theorem challenge_ne_unenforcedReply (session : Session) (account : AccountRecord) (id : Bytes) :
    ((createAuthChallenge session account).set (text "sessionId") (.str id)).set (text "ok")
      (.bool true) ≠ unenforcedReply := by
  intro h
  have hHas : Json.contains (((createAuthChallenge session account).set (text "sessionId")
      (.str id)).set (text "ok") (.bool true)) (text "challenge") = true := by
    unfold createAuthChallenge Json.set Json.contains
    dsimp only
    rw [Json.lookup_setField_of_ne (by decide), Json.lookup_setField_of_ne (by decide)]
    rfl
  rw [h] at hHas
  exact absurd hHas (by decide)

/-- How `begin_auth` comes to such a reply: the account was not found to be enforced, and
the policy was not found to list it. -/
structure Unenforced (P : Platform) (E : Environment) (request : Json) (m n : Machine) : Prop where
  found : ∃ sid r k, wideField P request (text "sid") = .ok sid ∧
    loadOrCreate P E m = (.returned r, k) ∧
    (∀ v, r = .ok v → isEnforced (accountOf sid v.accounts) = false) ∧
    isSidEnforced E sid k = (.returned false, n)

theorem unenforced_of_beginAuth {b b' : Broker} {caller : Caller} {request : Json} {v : Vault}
    (h : beginAuth P E caller request v b = (.returned unenforcedReply, b')) :
    Unenforced P E request b.machine b'.machine := by
  unfold beginAuth at h
  obtain ⟨sid, c, hField, h⟩ := bind_returned_iff.mp h
  obtain ⟨hSid, rfl⟩ := ofExcept_returned_iff.mp hField
  split_ifs at h
  · cases h
  obtain ⟨account, c, hLookup, h⟩ := bind_returned_iff.mp h
  obtain ⟨k, hFind, rfl⟩ := zoom_returned_iff.mp hLookup
  unfold findAccount at hFind
  obtain ⟨r, k', hLoad, hFind⟩ := bind_returned_iff.mp hFind
  cases hFilter : account.filter (·.enforced) with
  | none =>
      rw [hFilter] at h
      dsimp only at h
      obtain ⟨listed, c, hAsked, h⟩ := bind_returned_iff.mp h
      obtain ⟨n, hListed, rfl⟩ := zoom_returned_iff.mp hAsked
      cases listed with
      | true => cases h
      | false =>
          cases h
          cases r with
          | error e =>
              -- with no vault at all there is no account, and only the policy is asked
              cases hFind
              exact ⟨sid, _, _, hSid, hLoad, nofun, hListed⟩
          | ok w =>
              cases hFind
              refine ⟨sid, _, _, hSid, hLoad, ?_, hListed⟩
              rintro _ ⟨⟩
              unfold isEnforced
              cases hAccount : accountOf sid w.accounts with
              | none => rfl
              | some a =>
                  rw [hAccount, Option.filter_some] at hFilter
                  simpa using hFilter
  | some a =>
      rw [hFilter] at h
      dsimp only at h
      split_ifs at h
      · cases h
      unfold challengeAccount at h
      obtain ⟨session, c, -, h⟩ := bind_returned_iff.mp h
      obtain ⟨id, c', -, h⟩ := bind_returned_iff.mp h
      have hReply := Outcome.returned.inj (Prod.mk.inj h).1
      exact absurd hReply (challenge_ne_unenforcedReply session a id)

/-- The request could refresh and load the store, and then looked for the account. -/
theorem unenforced_of_handle {b b' : Broker} {caller : Caller} {request : Json}
    (hOp : (⟨b, caller, request⟩ : Handling).operation = .ok (text "begin_auth"))
    (h : handle P E caller request b = (.returned unenforcedReply, b')) :
    ∃ m v k, refreshLocalAccounts P E b.machine = (.returned (.ok ()), m) ∧
      loadOrCreate P E m = (.returned (.ok v), k) ∧ Unenforced P E request k b'.machine := by
  obtain ⟨m, hRefresh, h⟩ := handle_returned hOp h
  unfold dispatch at h
  rw [if_neg (by decide)] at h
  obtain ⟨r, c, hSecond, h⟩ := bind_returned_iff.mp h
  obtain ⟨k, hLoad, rfl⟩ := zoom_returned_iff.mp hSecond
  cases r with
  | error e => cases h
  | ok v =>
      dsimp only at h
      rw [if_pos rfl] at h
      exact ⟨m, v, k, hRefresh, hLoad, unenforced_of_beginAuth h⟩

/-! ## Later requests -/

/-- What may happen after the Broker was `b`, when an enforcement of `s` was acknowledged,
during the events `mid` and `last`. -/
structure Guarded (P : Platform) (E : Environment) (b : Broker) (s : WString) (mid : List Event)
    (last : Event) : Prop where
  /-- a vault that is put in the place of the primary file enforces `s` -/
  left : ∀ e ∈ mid ++ [last], e.Leaves P (TableWith s fun x => isEnforced x = true)
  /-- so does every vault of the backup that a load falls back to -/
  back : ∀ v, .loaded .backup v ∈ entriesSince b.machine (run P E b (mid ++ [last])).machine →
    isEnforced (accountOf s v.accounts) = true
  /-- no load makes a new vault -/
  created : .created ∉ entriesSince b.machine (run P E b (mid ++ [last])).machine
  /-- where writes fail, no request tries to end the enforcement -/
  written : ∀ pre e post, mid ++ [last] = pre ++ e :: post →
    WritesSucceed E ∨ ¬ Attempts P E (run P E b pre) e s (.enforced true)
  /-- where a load fails in `last`, the policy can be read, and no SID breaks its list -/
  listed : .loadFailed ∈ entriesSince (run P E b mid).machine
      (run P E b (mid ++ [last])).machine →
    (∀ t, (run P E b mid).machine.tick ≤ t → t < (run P E b (mid ++ [last])).machine.tick →
      E.registryReadFails t = false) ∧
    ∀ v, WorkedOn P b.machine (run P E b (mid ++ [last])).machine v →
      ∀ a ∈ v.accounts, a.enforced = true → (0 : UInt16) ∉ a.sid

/-- A request that is answered without a challenge found a vault without the enforcement,
or none at all after the policy was published. -/
theorem not_unenforced {request : Json} {s sid : WString} {m₀ b m m' n : Machine} {v : Vault}
    (hSid : wideField P request (text "sid") = .ok sid) (hSame : isSameSid sid s = true)
    (hRefresh : refreshLocalAccounts P E b = (.returned (.ok ()), m))
    (hLoad : loadOrCreate P E m = (.returned (.ok v), m')) (hSince : Later m₀ b)
    (hCreated : .created ∉ entriesSince m₀ n)
    (hTables : ∀ w, WorkedOn P m₀ n w → TableWith s (fun x => isEnforced x = true) w.accounts)
    (hThere : ¬ Vanished P E b.tick n.tick s)
    (hListed : .loadFailed ∈ entriesSince b n →
      (∀ t, b.tick ≤ t → t < n.tick → E.registryReadFails t = false) ∧
      ∀ w, WorkedOn P m₀ n w → ∀ a ∈ w.accounts, a.enforced = true → (0 : UInt16) ∉ a.sid) :
    ¬ Unenforced P E request m' n := by
  rintro ⟨sid', r, k, hSid', hFind, hFound, hAsked⟩
  obtain rfl : sid = sid' := Except.ok.inj (hSid.symm.trans hSid')
  obtain ⟨v₀, k₀, w, hFirst, hLater₀, hAccounts, hValid, hPolicy⟩ := published_of_refresh hRefresh
  have hB : Later b k₀ := Moves.of_eq moves_loadOrCreate hFirst
  have hM : Later m m' := Moves.of_eq moves_loadOrCreate hLoad
  have hK : Later m' k := Moves.of_eq moves_loadOrCreate hFind
  have hNext : n = k.next := by
    rw [← isSidEnforced_effects (E := E) sid k, hAsked]
  have hN : Later k n := by
    rw [hNext]
    exact (Quiet.next k).later
  have hToM : Later b m := hB.trans hLater₀
  have hToM' : Later b m' := hToM.trans hM
  have hToK : Later b k := hToM'.trans hK
  have hToN : Later b n := hToK.trans hN
  -- the three loads of the request, none of which made a new vault
  have hUncreated : ∀ {l : Machine}, Later b l → Later l n → .created ∉ entriesSince b l := by
    intro l hFrom hTo hMem
    refine hCreated (mem_entriesSince_of_suffix hSince.log_suffix hToN ?_)
    exact mem_entriesSince_of_later hFrom.log_suffix hTo hMem
  have hWorked : ∀ {l : Machine} {file u}, Later b l → Later l n →
      .loaded file u ∈ entriesSince b l → WorkedOn P m₀ n u := by
    intro l file u hFrom hTo hMem
    refine .inr ⟨file, mem_entriesSince_of_suffix hSince.log_suffix hToN ?_⟩
    exact mem_entriesSince_of_later hFrom.log_suffix hTo hMem
  obtain ⟨-, hEnd₀⟩ := ((meets_loadOrCreate b).of_eq hFirst).entries List.suffix_rfl
    (hUncreated hB (hLater₀.trans (hM.trans (hK.trans hN))))
  obtain ⟨hRegistry₁, -⟩ := ((meets_loadOrCreate m).of_eq hLoad).entries hToM.log_suffix
    (hUncreated hToM' (hK.trans hN))
  obtain ⟨hRegistry₂, hEnd⟩ := ((meets_loadOrCreate m').of_eq hFind).entries hToM'.log_suffix
    (hUncreated hToK hN)
  rcases hEnd with ⟨file, u, hReturned, -, hMem⟩ | ⟨-, hFailed⟩
  · -- the account was looked up in a vault that enforces it
    have hEnforced : isEnforced (accountOf s u.accounts) = true :=
      (hTables u (hWorked hToK hN hMem)).account
    rw [← accountOf_congr hSame, hFound u (Outcome.returned.inj hReturned)] at hEnforced
    cases hEnforced
  · -- or it was not looked up, but the policy has it from the refresh
    obtain ⟨hReads, hClean⟩ := hListed (mem_entriesSince_of_later hToK.log_suffix hN hFailed)
    rcases hEnd₀ with ⟨file, u, hReturned, hValid₀, hMem⟩ | ⟨⟨e, hReturned⟩, -⟩
    · obtain rfl := Except.ok.inj (Outcome.returned.inj hReturned)
      have hWorked₀ := hWorked hB (hLater₀.trans (hM.trans (hK.trans hN))) hMem
      have hTable := hTables v₀ hWorked₀
      have hEnforced : isEnforced (accountOf s w.accounts) = true := by
        rcases hAccounts.accountOf hTable.distinct s with ⟨name, hName⟩ | ⟨-, hVanished⟩
        · have hBefore : isEnforced (accountOf s v₀.accounts) = true := hTable.account
          rw [hName]
          cases hAccount : accountOf s v₀.accounts with
          | none =>
              rw [hAccount] at hBefore
              cases hBefore
          | some a =>
              rw [hAccount] at hBefore
              exact hBefore
        · exact absurd (hVanished.mono (le_refl _) (hM.trans (hK.trans hN)).tick_le) hThere
      -- a refresh keeps SIDs and enforcement, so no SID breaks the published list
      have hNul : ∀ a ∈ w.accounts, a.enforced = true → (0 : UInt16) ∉ a.sid := by
        intro a ha hOn
        obtain ⟨a₀, ha₀, hSid₀, hOn₀⟩ := hAccounts.enforced a ha
        rw [hSid₀]
        exact hClean v₀ hWorked₀ a₀ ha₀ (hOn₀ ▸ hOn)
      have hPublished : k.registry = publishedPolicy w :=
        hRegistry₂.trans (hRegistry₁.trans hPolicy)
      have hRead : E.registryReadFails k.tick = false := by
        refine hReads k.tick hToK.tick_le ?_
        rw [hNext]
        exact Nat.lt_succ_self _
      have hLegible := legible_of_accountOf (hValid hValid₀) hNul hEnforced hSame
      rw [isSidEnforced_published hPublished hRead, hLegible] at hAsked
      cases hAsked
    · cases hReturned

/-- Where all vaults that were worked on have the enforcement and the account is there, a
`begin_auth` is not answered without a challenge. -/
theorem Guarded.not_letThrough {b : Broker} {s : WString} {mid : List Event} {last : Event}
    (hGuarded : Guarded P E b s mid last)
    (hTables : ∀ v, WorkedOn P b.machine (run P E b (mid ++ [last])).machine v →
      TableWith s (fun x => isEnforced x = true) v.accounts)
    (hThere : ¬ Vanished P E (run P E b mid).machine.tick
      (step P E (run P E b mid) last).machine.tick s) : ¬ LetThrough P E (run P E b mid) last s := by
  have hCreated := hGuarded.created
  have hListed := hGuarded.listed
  rw [run_concat] at hTables hCreated hListed
  rintro ⟨pipe, input, caller, request, sid, rfl, hOpen, hOp, hSid, hSame, hReply⟩
  rcases hHandle : handle P E caller request (run P E b mid) with ⟨o, b'⟩
  rw [hHandle] at hReply
  obtain rfl : o = .returned unenforcedReply := hReply
  have hLast : (step P E (run P E b mid) (.request pipe input)).machine = b'.machine :=
    (serve_handled hOpen hHandle).1
  rw [hLast] at hTables hCreated hListed hThere
  obtain ⟨m, v, k, hRefresh, hLoad, hUnenforced⟩ := unenforced_of_handle hOp hHandle
  exact not_unenforced hSid hSame hRefresh hLoad (run_later b mid) hCreated hTables hThere hListed
    hUnenforced

section FailClosed

variable (hT : P.Transcodes) (hProtects : P.Protects) (hParses : P.ParsesDumps)
include hT hProtects hParses

/-- Everything that was worked on since an enforcement was acknowledged has it. -/
theorem SetsEnforcement.lasts (hStrict : P.StrictUtf8) (hTorn : TornRefused P E) {b₀ b : Broker}
    (hDistinct : ∀ file v, VaultFile.Kept file → vaultIn P b₀.machine.disk file = some v →
      DistinctSids v.accounts)
    {es : List Event} {e : Event} (hBefore : ∀ e' ∈ es ++ [e], e'.Leaves P DistinctSids)
    (hAt : run P E b₀ (es ++ [e]) = b) {s : WString}
    (hSet : SetsEnforcement P E (run P E b₀ es) e s true) {mid : List Event} {last : Event}
    (hKept : ∀ pre e' post, mid ++ [last] = pre ++ e' :: post →
      ¬ Undoes P E (run P E b pre) e' s (.enforced true))
    (hGuarded : Guarded P E b s mid last) :
    ∀ v, WorkedOn P b.machine (run P E b (mid ++ [last])).machine v →
      TableWith s (fun x => isEnforced x = true) v.accounts := by
  have hAcknowledged := hSet.acknowledges
  have hHere : step P E (run P E b₀ es) e = b := by rw [← hAt, run_concat]
  rw [hHere] at hAcknowledged
  -- an enforcement needs no writes to succeed: no save that fails takes it out of a vault
  have hSafe : (VaultChange.enforced true).Safe E := .inr rfl
  have hLeft : ∀ e' ∈ mid ++ [last], e'.Leaves P (TableWith s (VaultChange.enforced true).Present) :=
    hGuarded.left
  have hAll : ∀ e' ∈ es ++ [e] ++ (mid ++ [last]), e'.Leaves P DistinctSids := by
    intro e' he'
    rcases List.mem_append.mp he' with hOld | hNew
    · exact hBefore e' hOld
    · exact (hLeft e' hNew).mono fun A hA => hA.distinct
  have hTables := distinct_held hT hProtects hParses hTorn hDistinct hAll
  have hSplit : run P E b₀ (es ++ [e] ++ (mid ++ [last])) = run P E b (mid ++ [last]) := by
    rw [← hAt]
    exact History.run_append ..
  rw [hSplit] at hTables
  have hSince : Later b₀.machine b.machine := by
    rw [← hAt]
    exact run_later b₀ _
  have hFell : FellBack (TableWith s (VaultChange.enforced true).Present) b.machine
      (run P E b (mid ++ [last])).machine := by
    refine ⟨fun w hw => ⟨?_, hGuarded.back w hw⟩, fun hMem => absurd hMem hGuarded.created⟩
    refine hTables w.accounts fun _ => .inr ⟨w, rfl, .inr ⟨.backup, ?_⟩⟩
    exact mem_entriesSince_of_suffix hSince.log_suffix (run_later b _) hw
  have hStart := hAcknowledged.held hT hProtects hParses hSafe (fun w hw => ?_) ?_
  · rw [hHere] at hStart
    exact present_run hT hProtects hParses hStrict hSafe hStart (Std.Refl.refl _) hLeft hFell
      fun pre e' post hMid => ⟨hKept pre e' post hMid, hGuarded.written pre e' post hMid⟩
  · have hBroker : Acknowledges P E (run P E b₀ es) e s (.enforced true) b.machine := hAcknowledged
    exact hBroker.distinct hT hProtects hParses hTorn hDistinct hBefore hw
  · rw [hHere]
    exact fun _ => hFell.of_later List.suffix_rfl (run_later b _)

/-- Once an enforcement was acknowledged, no later `begin_auth` for the account is answered
without a challenge, whatever fails and whatever becomes of the primary file, until a
request that ends it is answered with `ok` or the account is deleted, as long as what loads
fall back to is guarded. -/
theorem begin_auth_fails_closed (hStrict : P.StrictUtf8) (hTorn : TornRefused P E) {b₀ b : Broker}
    (hDistinct : ∀ file v, VaultFile.Kept file → vaultIn P b₀.machine.disk file = some v →
      DistinctSids v.accounts)
    {es : List Event} {e : Event} (hBefore : ∀ e' ∈ es ++ [e], e'.Leaves P DistinctSids)
    (hAt : run P E b₀ (es ++ [e]) = b) {s : WString}
    (hSet : SetsEnforcement P E (run P E b₀ es) e s true) {mid : List Event} {last : Event}
    (hKept : ∀ pre e' post, mid ++ [last] = pre ++ e' :: post →
      (∀ sid, isSameSid sid s = true → ¬ SetsEnforcement P E (run P E b pre) e' sid false) ∧
      ¬ Vanished P E (run P E b pre).machine.tick (step P E (run P E b pre) e').machine.tick s)
    (hGuarded : Guarded P E b s mid last) :
    ¬ LetThrough P E (run P E b mid) last s := by
  have hTables := hSet.lasts hT hProtects hParses hStrict hTorn hDistinct hBefore hAt
    (fun pre e' post hMid => not_undoes_enforced (hKept pre e' post hMid).1 (hKept pre e' post hMid).2)
    hGuarded
  exact hGuarded.not_letThrough hTables (hKept mid last [] rfl).2

end FailClosed

section Example

open Reference

def enableText : Bytes :=
  text "\x7b\"version\":1,\"op\":\"set_enforcement\",\"sid\":\"S-1-5-21-1-2-3-1001\",\"username\":\"alice\",\"password\":\"secret\",\"enabled\":true\x7d"

/-- `alice` enforces her account. -/
def enable : Event := .request adminPipe enableText

/-- Somebody logs on as `alice`. -/
def login : Event := .request alicePipe beginText

/-- `alice` enforces her account, and does so again, which brings the enforcement to the
backup; then the primary file is deleted. -/
def damaged : List Event := [enable, .tamper none]

/-- The account is enforced in the vault, if one was loaded from the backup, and every load
found a vault. -/
def LogEntry.enforces (s : WString) : LogEntry → Bool
  | .loaded .backup v => isEnforced (accountOf s v.accounts)
  | .loaded _ _ => true
  | _ => false

theorem enableText_fields :
    (Json.parse enableText).isSome = true ∧
      (parsed enableText).valueOr Json.getUnsigned (text "version") 0 = .ok kBrokerProtocolVersion ∧
      (parsed enableText).valueOr Json.getString (text "op") [] = .ok (text "set_enforcement") ∧
      wideField (platform {}) (parsed enableText) (text "sid") = .ok aliceSid ∧
      ((parsed enableText).at_ (text "enabled") >>= Json.getBool) = .ok true ∧
      enableText.isEmpty = false ∧ enableText.length ≤ kMaxBrokerMessageBytes := by
  decide +kernel

theorem openRequest_enable :
    openRequest (platform {}) adminPipe enableText =
      .ok ({ sid := aliceSid, isElevatedAdmin := true }, parsed enableText) :=
  openRequest_eq enableText_fields.2.2.2.2.2.1 enableText_fields.2.2.2.2.2.2
    (parse_eq_parsed enableText_fields.1) enableText_fields.2.1 rfl

theorem beginText_fields :
    (Json.parse beginText).isSome = true ∧
      (parsed beginText).valueOr Json.getUnsigned (text "version") 0 = .ok kBrokerProtocolVersion ∧
      (parsed beginText).valueOr Json.getString (text "op") [] = .ok (text "begin_auth") ∧
      wideField (platform {}) (parsed beginText) (text "sid") = .ok aliceSid ∧
      beginText.isEmpty = false ∧ beginText.length ≤ kMaxBrokerMessageBytes := by
  decide +kernel

theorem openRequest_login :
    openRequest (platform {}) alicePipe beginText = .ok (aliceCaller, parsed beginText) :=
  openRequest_eq beginText_fields.2.2.2.2.1 beginText_fields.2.2.2.2.2
    (parse_eq_parsed beginText_fields.1) beginText_fields.2.1 rfl

theorem sets_enable
    (hOk : ((serve (platform {}) calm adminPipe enableText twoKeys).1.map Prod.snd) = some true) :
    SetsEnforcement (platform {}) calm twoKeys enable aliceSid true := by
  obtain ⟨⟨output, ok⟩, hReply, hTrue⟩ := Option.map_eq_some_iff.mp hOk
  obtain rfl : ok = true := hTrue
  obtain ⟨-, -, hOp, hSid, hEnabled, -⟩ := enableText_fields
  have hOpen := openRequest_enable
  generalize parsed enableText = request at hOp hSid hEnabled hOpen
  have hAnswered : AnsweredOk (platform {}) calm twoKeys enable
      { sid := aliceSid, isElevatedAdmin := true } request :=
    ⟨adminPipe, enableText, output, rfl, hOpen, hReply⟩
  exact ⟨_, request, hAnswered, hOp, hSid, hEnabled⟩

/-- None of the later events ends the enforcement. -/
theorem not_sets_damaged {b : Broker} {e : Event} (he : e ∈ damaged ++ [login]) (sid : WString) :
    ¬ SetsEnforcement (platform {}) calm b e sid false := by
  rintro ⟨caller, request, ⟨pipe, input, output, hEvent, hOpen, -⟩, hOp, -, hEnabled⟩
  simp only [damaged, List.cons_append, List.nil_append, List.mem_cons, List.not_mem_nil,
    or_false] at he
  rcases he with rfl | rfl | rfl
  · cases hEvent
    have hTrue := enableText_fields.2.2.2.2.1
    rw [openRequest_enable] at hOpen
    generalize parsed enableText = request' at hOpen hTrue
    cases hOpen
    rw [hTrue] at hEnabled
    cases hEnabled
  · cases hEvent
  · cases hEvent
    have hBegin := beginText_fields.2.2.1
    rw [openRequest_login] at hOpen
    generalize parsed beginText = request' at hOpen hBegin
    cases hOpen
    have hSame : text "begin_auth" = text "set_enforcement" :=
      Except.ok.inj (hBegin.symm.trans hOp)
    exact absurd hSame (by decide)

/-- The primary file is gone, and `alice` is challenged all the same. -/
theorem begin_auth_fails_closed_example :
    ¬ LetThrough (platform {}) calm (run (platform {}) calm (run (platform {}) calm twoKeys [enable])
      damaged) login aliceSid := by
  have hRun : ((serve (platform {}) calm adminPipe enableText twoKeys).1.map Prod.snd) = some true ∧
      (entriesSince (run (platform {}) calm twoKeys [enable]).machine
        (run (platform {}) calm (run (platform {}) calm twoKeys [enable])
          (damaged ++ [login])).machine).all (LogEntry.enforces aliceSid) = true ∧
      (entriesSince (run (platform {}) calm (run (platform {}) calm twoKeys [enable]) damaged).machine
        (run (platform {}) calm (run (platform {}) calm twoKeys [enable])
          (damaged ++ [login])).machine).all (LogEntry.enforces aliceSid) = true := by
    decide +kernel
  obtain ⟨hOk, hAll, hLast⟩ := hRun
  rw [List.all_eq_true] at hAll hLast
  generalize hAt : run (platform {}) calm twoKeys [enable] = b at hAll hLast ⊢
  have hBefore : ∀ e ∈ [] ++ [enable], e.Leaves (platform {}) DistinctSids := by
    rintro e he content v rfl
    simp [enable] at he
  have hLeft : ∀ e ∈ damaged ++ [login],
      e.Leaves (platform {}) (TableWith aliceSid fun x => isEnforced x = true) := by
    rintro e he content v rfl
    simp [damaged, enable, login] at he
  have hGuarded : Guarded (platform {}) calm b aliceSid damaged login :=
    { left := hLeft
      back := fun v hMem => hAll _ hMem
      created := fun hMem => absurd (hAll _ hMem) (by decide)
      written := fun _ _ _ _ => .inl fun _ => rfl
      listed := fun hMem => absurd (hLast _ hMem) (by decide) }
  refine begin_auth_fails_closed (transcodes {}) (protects {}) (parsesDumps {}) (strictUtf8 {})
    (tornRefused_of_writesSucceed fun _ => rfl) distinct_twoKeys hBefore hAt (sets_enable hOk)
    (fun pre e post hMid => ⟨fun sid _ => ?_, not_vanished_alice fun _ => rfl⟩) hGuarded
  exact not_sets_damaged (by rw [hMid]; simp) sid

/-- After one save only, the backup is from before the enforcement: it is not guarded. -/
example : (serve (platform {}) calm alicePipe beginText
      (run (platform {}) calm twoKeys [enable, .tamper none])).1 =
    some (text "\x7b\"enforced\":false,\"ok\":true\x7d", true) := by
  decide +kernel

end Example

end BrokerService
end WindowsFidoLogon
