import WindowsFidoLogon.Credential.Ceremony

/-!
# Whose identity a tile serializes

With one account database throughout, the name and domain of a tile that is complete
or asks for a new password are those of the account that a `Connect` authorized
since the last reset.  A `Connect` that stalls meanwhile resolves the name again,
which gives the same account, because a resolved name has no domain left in it.
-/

namespace WindowsFidoLogon

open Text LocalAccount

namespace LocalAccount

/-- Names as Windows has them: no account name holds a backslash, and the computer's
name holds no NUL. -/
structure AccountNames (db : AccountDatabase) : Prop where
  backslash : ∀ name, 92 ∈ name → db.netUserGetInfo name ≠ .ok ()
  computer : (0 : UInt16) ∉ db.computer

theorem splitDomain_of_notMem {name : WString} (h : (92 : UInt16) ∉ name) :
    splitDomain name = (none, name) := by
  have hPlain : ∀ c ∈ name, decide (c ≠ 92) = true := fun c hc => by
    have : c ≠ 92 := fun hEq => h (hEq ▸ hc)
    simpa using this
  unfold splitDomain
  rw [List.span_eq_takeWhile_dropWhile, List.takeWhile_eq_self_iff.mpr hPlain,
    List.dropWhile_eq_nil_iff.mpr hPlain]

theorem splitDomain_subset (name : WString) : (splitDomain name).2 ⊆ name := by
  unfold splitDomain
  rw [List.span_eq_takeWhile_dropWhile]
  have hBack : name.dropWhile (· ≠ 92) ⊆ name := List.dropWhile_subset _
  cases hRest : name.dropWhile (· ≠ 92) with
  | nil => exact List.takeWhile_subset _
  | cons slash candidate =>
      rw [hRest] at hBack
      exact List.Subset.trans (List.subset_cons_self slash candidate) hBack

theorem resolveLocalAccount_ok {db : AccountDatabase} {name : WString}
    {account : ResolvedAccount} (h : resolveLocalAccount db name = .ok account) :
    resolveCandidate db (splitDomain name).2 = .ok account := by
  unfold resolveLocalAccount at h
  split at h
  · cases h
  · split at h
    · rename_i hSplit
      split at h
      · cases h
      · rw [hSplit]
        exact h
    · rename_i hSplit
      rw [hSplit]
      exact h

theorem resolveCandidate_ok {db : AccountDatabase} {candidate : WString}
    {account : ResolvedAccount} (h : resolveCandidate db candidate = .ok account) :
    db.netUserGetInfo (cstr candidate) = .ok () ∧ account.username = candidate ∧
      account.computerName = db.computer := by
  unfold resolveCandidate at h
  split at h
  · cases h
  · obtain ⟨⟨⟩, hInfo, h⟩ := Program.except_bind_eq_ok.mp h
    obtain ⟨found, -, h⟩ := Program.except_bind_eq_ok.mp h
    split at h
    · cases h
    · obtain ⟨sidString, -, h⟩ := Program.except_bind_eq_ok.mp h
      cases h
      exact ⟨hInfo, rfl, rfl⟩

/-- The name of a resolved account holds no NUL if the given one does not. -/
theorem resolveLocalAccount_nul {db : AccountDatabase} {name : WString}
    (hName : (0 : UInt16) ∉ name) {account : ResolvedAccount}
    (h : resolveLocalAccount db name = .ok account) : (0 : UInt16) ∉ account.username := by
  rw [(resolveCandidate_ok (resolveLocalAccount_ok h)).2.1]
  exact fun h => hName (splitDomain_subset name h)

/-- A name that resolves has its domain stripped, and resolves to the same account
without it. -/
theorem resolveLocalAccount_stable {db : AccountDatabase} (hNames : AccountNames db)
    {name : WString} (hName : (0 : UInt16) ∉ name) {account again : ResolvedAccount}
    (h : resolveLocalAccount db name = .ok account)
    (hAgain : resolveLocalAccount db account.username = .ok again) : again = account := by
  have hCandidate := resolveLocalAccount_ok h
  obtain ⟨hInfo, hUsername, -⟩ := resolveCandidate_ok hCandidate
  have hNul := resolveLocalAccount_nul hName h
  have hPlain : (92 : UInt16) ∉ account.username := fun hSlash => by
    rw [← hUsername, cstr_of_notMem hNul] at hInfo
    exact hNames.backslash _ hSlash hInfo
  have hSame := resolveLocalAccount_ok hAgain
  rw [splitDomain_of_notMem hPlain, hUsername, hCandidate] at hSame
  exact (Except.ok.inj hSame).symm

end LocalAccount

namespace Tile

open History CCredential

variable (P : Platform)

/-! ## The account of a tile -/

/-- The identity of the tile is that of `account`, which its name resolves to, and to
which a bound tile is bound. -/
structure Known (db : AccountDatabase) (t : Tile) (account : ResolvedAccount) : Prop where
  resolved : ∃ name, resolveLocalAccount db name = .ok account
  stable : ∀ again, resolveLocalAccount db account.username = .ok again → again = account
  username : t.core.username = account.username
  domain : t.core.domain = account.computerName
  bound : t.core.userSid = [] ∨ wcsicmpEq account.sidString t.core.userSid = true

theorem Known.of_core {db : AccountDatabase} {t t' : Tile} {account : ResolvedAccount}
    (h : Known db t account) (hUsername : t'.core.username = t.core.username)
    (hDomain : t'.core.domain = t.core.domain) (hUserSid : t'.core.userSid = t.core.userSid) :
    Known db t' account where
  resolved := h.resolved
  stable := h.stable
  username := hUsername.trans h.username
  domain := hDomain.trans h.domain
  bound := by
    rw [hUserSid]
    exact h.bound

/-- Resolving the name of a known tile again changes nothing. -/
theorem Known.identifies {S : Surroundings} {t : Tile} {account again : ResolvedAccount}
    (h : Known S.accounts t account) (hAgain : Identifies S t again) : again = account :=
  h.stable again (h.username ▸ hAgain.resolved)

theorem Identifies.known {S : Surroundings} (hNames : AccountNames S.accounts) {t t' : Tile}
    (hName : (0 : UInt16) ∉ t.core.username) {account : ResolvedAccount}
    (h : Identifies S t account) {mode : Mode} {challenge : Option AuthenticationChallenge}
    {mfaComplete : Bool}
    (hCore : t'.core = { identified account t.core with mode, challenge, mfaComplete }) :
    Known S.accounts t' account where
  resolved := ⟨_, h.resolved⟩
  stable _ hAgain := resolveLocalAccount_stable hNames hName h.resolved hAgain
  username := by rw [hCore]; rfl
  domain := by rw [hCore]; rfl
  bound := by
    rw [hCore]
    exact h.bound

/-! ## Authorization since the last reset -/

/-- The run `es` to the tile `u` splits at a `Connect` that authorized `sid`, and there
was no reset since. -/
structure AuthorizedBy (t : Tile) (es : List (Callback × Surroundings)) (u : Tile)
    (pre : List (Callback × Surroundings)) (S : Surroundings)
    (post : List (Callback × Surroundings)) (sid : WString) : Prop where
  split : es = pre ++ (.connect, S) :: post
  completes : Completes P S (run (step P) t pre) sid
  noReset : NoReset (run (step P) t (pre ++ [(.connect, S)])) u

theorem AuthorizedBy.snoc {t u v : Tile} {es pre post : List (Callback × Surroundings)}
    {S : Surroundings} {sid : WString} (h : AuthorizedBy P t es u pre S post sid)
    (e : Callback × Surroundings) (hNoReset : NoReset u v) :
    AuthorizedBy P t (es ++ [e]) v pre S (post ++ [e]) sid where
  split := by rw [h.split, List.append_assoc, List.cons_append]
  completes := h.completes
  noReset := h.noReset.trans hNoReset

/-- A `Connect` authorizes at the end of the run. -/
theorem AuthorizedBy.last {t : Tile} {es : List (Callback × Surroundings)} {S : Surroundings}
    {sid : WString} {acts : List Act} (hStatus : ((run (step P) t es).connect P S).1.status = S_OK)
    (hActs : ((run (step P) t es).connect P S).2.acts = acts) (hAuthorizes : Authorizes sid acts) :
    AuthorizedBy P t (es ++ [(.connect, S)]) ((run (step P) t es).connect P S).2 es S [] sid where
  split := rfl
  completes := ⟨hStatus, hActs ▸ hAuthorizes⟩
  noReset := by
    rw [run_concat]
    exact .refl _

/-- A report that the password has expired or must be changed. -/
def AsksNewPassword (event : Callback × Surroundings) : Prop :=
  ∃ status substatus, event.1 = .reportResult status substatus true ∧
    status ≠ STATUS_SUCCESS ∧ mustChangePassword status substatus = true

/-- What a run with one account database comes to: the account of a complete tile, of
a pending challenge, and of an authorized password change. -/
structure Accounted (db : AccountDatabase) (t : Tile) (es : List (Callback × Surroundings))
    (u : Tile) : Prop where
  name : (0 : UInt16) ∉ u.core.username
  complete : u.core.mfaComplete = true → ∃ account, Known db u account ∧
    ∃ pre S post, AuthorizedBy P t es u pre S post account.sidString
  pending : u.core.challenge ≠ none → ∃ account, Known db u account ∧
    account.sidString = u.core.sid
  changing : u.core.mode = .changePassword → u.core.passwordChangeAuthorized = true →
    ∃ account, Known db u account ∧
      ∃ pre S post, AuthorizedBy P t es u pre S post account.sidString ∧
        ∃ f ∈ post, AsksNewPassword f

variable {P} {db : AccountDatabase} {t u v : Tile} {es : List (Callback × Surroundings)}

/-- A step that keeps the identity keeps what was authorized for it. -/
theorem Accounted.of_same (h : Accounted P db t es u) (e : Callback × Surroundings)
    (hCore : v.core = u.core) (hNoReset : NoReset u v) : Accounted P db t (es ++ [e]) v := by
  have hKnown : ∀ {account}, Known db u account → Known db v account := fun hAccount =>
    hAccount.of_core (by rw [hCore]) (by rw [hCore]) (by rw [hCore])
  constructor <;> rw [hCore]
  · exact h.name
  · intro hMfa
    obtain ⟨account, hAccount, pre, S, post, hBy⟩ := h.complete hMfa
    exact ⟨account, hKnown hAccount, pre, S, post ++ [e], hBy.snoc P e hNoReset⟩
  · intro hChallenge
    obtain ⟨account, hAccount, hSid⟩ := h.pending hChallenge
    exact ⟨account, hKnown hAccount, hSid⟩
  · intro hMode hChange
    obtain ⟨account, hAccount, pre, S, post, hBy, f, hf, hAsks⟩ := h.changing hMode hChange
    exact ⟨account, hKnown hAccount, pre, S, post ++ [e], hBy.snoc P e hNoReset, f,
      List.mem_append_left _ hf, hAsks⟩

/-- After a reset there is nothing to account for. -/
theorem Accounted.of_reset (hName : (0 : UInt16) ∉ u.core.username)
    (hMfa : u.core.mfaComplete = false) (hChallenge : u.core.challenge = none)
    (hChange : u.core.mode ≠ .changePassword ∨ u.core.passwordChangeAuthorized = false) :
    Accounted P db t es u where
  name := hName
  complete h := absurd h (by simp [hMfa])
  pending h := absurd hChallenge h
  changing hMode h := absurd h (by simpa [hMode] using hChange)

/-- A `Connect` that identified its account again keeps what an earlier one
authorized. -/
theorem Accounted.complete_again {S : Surroundings} (h : Accounted P S.accounts t es u)
    {account : ResolvedAccount} (hAccount : Identifies S u account)
    (hKnown : Known S.accounts v account) (e : Callback × Surroundings)
    (hNoReset : NoReset u v) (hMfa : u.core.mfaComplete = true) :
    ∃ account, Known S.accounts v account ∧
      ∃ pre S post, AuthorizedBy P t (es ++ [e]) v pre S post account.sidString := by
  obtain ⟨known, hBefore, pre, S', post, hBy⟩ := h.complete hMfa
  have hSame := hBefore.identifies hAccount
  subst hSame
  exact ⟨account, hKnown, pre, S', post ++ [e], hBy.snoc P e hNoReset⟩

theorem Accounted.connect {S : Surroundings} (hNames : AccountNames S.accounts)
    (h : Accounted P S.accounts t es (run (step P) t es)) (hSound : Sound (run (step P) t es)) :
    Accounted P S.accounts t (es ++ [(.connect, S)]) ((run (step P) t es).connect P S).2 := by
  cases connect_cases P S (run (step P) t es) with
  | refused hRefused hActs hCore => exact h.of_same _ hCore ((NoReset.refl _).same hActs)
  | reset u hReset hUsername hUserSid hRetired hMode =>
      refine .of_reset ?_ hReset.mfaComplete hReset.challenge (.inl hMode)
      rw [hReset.username]
      rcases hUsername with hUsername | ⟨account, hAccount, hUsername⟩ <;> rw [hUsername]
      · exact h.name
      · exact resolveLocalAccount_nul h.name hAccount.resolved
  | missing hUse hStalls hNoReset hBegun hCore => exact h.of_same _ hCore hNoReset
  | blocked account hUse hStalls hAccount hChallenge hNoReset hCore =>
      have hNul := resolveLocalAccount_nul h.name hAccount.resolved
      have hKnown := hAccount.known hNames h.name hCore
      constructor <;> rw [hCore]
      · exact hNul
      · exact h.complete_again hAccount hKnown _ hNoReset
      · exact fun hPending => absurd hChallenge hPending
      · exact fun hMode => absurd hMode hUse.mode
  | pinStage account challenge hStalls hUse hAccount hNoReset hBegun hCore =>
      have hNul := resolveLocalAccount_nul h.name hAccount.resolved
      have hKnown := hAccount.known hNames h.name hCore
      constructor <;> rw [hCore]
      · exact hNul
      · exact h.complete_again hAccount hKnown _ hNoReset
      · exact fun _ => ⟨account, hKnown, rfl⟩
      · nofun
  | accepted account challenge older hUse hChallenge hAccount hEnforced hStatus hNoReset hActs
      hCore =>
      have hNul := resolveLocalAccount_nul h.name hAccount.resolved
      have hKnown := hAccount.known hNames h.name hCore
      have hBy := AuthorizedBy.last P hStatus hActs (.notEnforced challenge older hEnforced)
      constructor <;> rw [hCore]
      · exact hNul
      · exact fun _ => ⟨account, hKnown, es, S, [], hBy⟩
      · exact fun hPending => absurd hChallenge hPending
      · exact fun hMode => absurd hMode hUse.mode
  | verifiedAtOnce account challenge older hUse hAccount hStatus hNoReset hActs hBegun hCore =>
      have hNul := resolveLocalAccount_nul h.name hAccount.resolved
      have hKnown := hAccount.known hNames h.name hCore
      have hBy := AuthorizedBy.last P hStatus hActs (.keyVerified challenge older hBegun)
      constructor <;> rw [hCore]
      · exact hNul
      · exact fun _ => ⟨account, hKnown, es, S, [], hBy⟩
      · nofun
      · exact fun hMode => absurd hMode hUse.mode
  | verified challenge hUse hChallenge hStatus hActs hCore =>
      obtain ⟨account, hBefore, hSid⟩ := h.pending (by rw [hChallenge]; nofun)
      have hKnown : Known S.accounts ((run (step P) t es).connect P S).2 account := by
        refine hBefore.of_core ?_ ?_ ?_ <;> rw [hCore]
      have hBy := AuthorizedBy.last P hStatus hActs
        (.keyVerified challenge _ (hSound.pending challenge hChallenge))
      rw [← hSid] at hBy
      constructor <;> rw [hCore]
      · exact h.name
      · exact fun _ => ⟨account, hKnown, es, S, [], hBy⟩
      · nofun
      · exact fun hMode => absurd hMode hUse.mode

theorem Accounted.perform {S : Surroundings} (hNames : AccountNames S.accounts)
    (h : Accounted P S.accounts t es (run (step P) t es)) (hSound : Sound (run (step P) t es))
    (callback : Callback) :
    Accounted P S.accounts t (es ++ [(callback, S)])
      ((run (step P) t es).perform P S callback).2 := by
  by_cases hConnect : callback = .connect
  · subst hConnect
    exact h.connect hNames hSound
  cases perform_cases P S hConnect (run (step P) t es) with
  | quiet hUnreported hActs hCore => exact h.of_same _ hCore ((NoReset.refl _).same hActs)
  | reset hUsername hUserSid hRetired hChallenge hMfa hChange =>
      refine .of_reset ?_ hMfa hChallenge hChange
      rcases hUsername with hUsername | ⟨text, hUsername⟩ <;> rw [hUsername]
      · exact h.name
      · exact nul_notMem_cstr text
  | expired hStatus hExpired hActs hCore =>
      have hKnown : ∀ {account}, Known S.accounts (run (step P) t es) account →
          Known S.accounts ((run (step P) t es).perform P S
            (.reportResult _ _ true)).2 account := fun hAccount => by
        refine hAccount.of_core ?_ ?_ ?_ <;> rw [hCore]
      have hNoReset := (NoReset.refl (run (step P) t es)).same hActs
      constructor <;> rw [hCore]
      · exact h.name
      · nofun
      · intro hChallenge
        obtain ⟨account, hAccount, hSid⟩ := h.pending hChallenge
        exact ⟨account, hKnown hAccount, hSid⟩
      · intro _ hMfa
        obtain ⟨account, hAccount, pre, S', post, hBy⟩ := h.complete hMfa
        exact ⟨account, hKnown hAccount, pre, S', _, hBy.snoc P _ hNoReset, _,
          List.mem_append_right _ (List.mem_singleton_self _), _, _, rfl, hStatus, hExpired⟩

/-- The username `Initialize` sets is a C string. -/
theorem Fresh.name (h : Fresh t) : (0 : UInt16) ∉ t.core.username := by
  obtain ⟨S, scenario, username, domain, password, userSid, hStart⟩ := h
  have hCore : t.core = _ := initializeCredential_core S hStart
  rw [hCore]
  exact nul_notMem_cstr username

variable (P) in
theorem accounted_run (hNames : AccountNames db) (hStart : Fresh t)
    (hFixed : ∀ e ∈ es, e.2.accounts = db) : Accounted P db t es (run (step P) t es) := by
  induction es using List.reverseRecOn with
  | nil =>
      obtain ⟨hChallenge, hMfa, hChange⟩ := hStart.incomplete
      exact .of_reset hStart.name hMfa hChallenge (.inr hChange)
  | append_singleton es e ih =>
      have hBefore := ih fun f hf => hFixed f (List.mem_append_left _ hf)
      obtain ⟨callback, S⟩ := e
      have hDb : S.accounts = db := hFixed (callback, S) (by simp)
      subst hDb
      rw [run_concat]
      exact hBefore.perform hNames (sound_run P hStart es) callback

end Tile

/-- The domain and the user name of a blob. -/
def Serialization.identity : Serialization → WString × WString
  | .logon _ domain username _ => (domain, username)
  | .changePassword domain username _ _ => (domain, username)

def Serialization.isChangePassword : Serialization → Bool
  | .logon .. => false
  | .changePassword .. => true

namespace Tile

open History CCredential

/-- With one account database, every blob carries the domain and name of an account
that a `Connect` authorized since the last reset, to which a bound tile is bound; and
a password change follows a report that asked for it. -/
theorem serialized_identity (P : Platform) {db : AccountDatabase} (hNames : AccountNames db)
    {t : Tile} (hStart : Fresh t) {es : List (Callback × Surroundings)}
    (hFixed : ∀ e ∈ es, e.2.accounts = db) {S : Surroundings} {outputs : Bool}
    {blob : Serialization}
    (hEmit : ((run (step P) t es).getSerialization S outputs).1.serialization = some blob) :
    ∃ name account pre S' post,
      resolveLocalAccount db name = .ok account ∧
      blob.identity = (account.computerName, account.username) ∧
      AuthorizedBy P t es (run (step P) t es) pre S' post account.sidString ∧
      (t.core.userSid = [] ∨ wcsicmpEq account.sidString t.core.userSid = true) ∧
      (blob.isChangePassword = true → ∃ f ∈ post, AsksNewPassword f) := by
  have hRun := accounted_run P hNames hStart hFixed
  have hUserSid := userSid_run P t es
  -- the identity of a known account is packed as it is
  have hIdentity : ∀ {account}, Known db (run (step P) t es) account →
      (cstr (run (step P) t es).core.domain, cstr (run (step P) t es).core.username) =
        (account.computerName, account.username) := fun hAccount => by
    obtain ⟨name, hName⟩ := hAccount.resolved
    have hDomain := (resolveCandidate_ok (resolveLocalAccount_ok hName)).2.2
    rw [cstr_of_notMem hRun.name, hAccount.username, hAccount.domain, hDomain,
      cstr_of_notMem hNames.computer]
  cases getSerialization_emits hEmit with
  | changePassword oldPassword newPassword hMode hAuthorized =>
      obtain ⟨account, hAccount, pre, S', post, hBy, hAsks⟩ := hRun.changing hMode hAuthorized
      obtain ⟨name, hName⟩ := hAccount.resolved
      exact ⟨name, account, pre, S', post, hName, hIdentity hAccount, hBy,
        hUserSid ▸ hAccount.bound, fun _ => hAsks⟩
  | logon message password hMode hMfa =>
      obtain ⟨account, hAccount, pre, S', post, hBy⟩ := hRun.complete hMfa
      obtain ⟨name, hName⟩ := hAccount.resolved
      exact ⟨name, account, pre, S', post, hName, hIdentity hAccount, hBy,
        hUserSid ▸ hAccount.bound, nofun⟩

theorem accountNames_reference : AccountNames Reference.accountDatabase where
  backslash name hSlash h := by
    unfold Reference.accountDatabase at h
    dsimp only at h
    split at h
    · rename_i hName
      rw [hName] at hSlash
      exact absurd hSlash (by decide)
    · cases h
  computer := by decide

theorem serialized_identity_example :
    ((run (step (Reference.platform {})) anonymous enters).getSerialization
      (calm none) true).1.serialization =
        some (.logon .interactiveLogon (wtext "PC") (wtext "alice") (wtext "secret")) ∧
      ∃ name account pre S' post,
        resolveLocalAccount Reference.accountDatabase name = .ok account ∧
        (wtext "PC", wtext "alice") = (account.computerName, account.username) ∧
        AuthorizedBy (Reference.platform {}) anonymous enters
          (run (step (Reference.platform {})) anonymous enters) pre S' post account.sidString ∧
        (anonymous.core.userSid = [] ∨
          wcsicmpEq account.sidString anonymous.core.userSid = true) ∧
        (false = true → ∃ f ∈ post, AsksNewPassword f) := by
  have hEmit : ((run (step (Reference.platform {})) anonymous enters).getSerialization
      (calm none) true).1.serialization =
        some (.logon .interactiveLogon (wtext "PC") (wtext "alice") (wtext "secret")) := by
    decide +kernel
  refine ⟨hEmit, serialized_identity _ accountNames_reference fresh_anonymous ?_ hEmit⟩
  intro e he
  simp only [enters, List.mem_cons, List.not_mem_nil, or_false] at he
  rcases he with rfl | rfl | rfl <;> rfl

end Tile
end WindowsFidoLogon
