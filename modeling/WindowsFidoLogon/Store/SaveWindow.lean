import WindowsFidoLogon.Store.PublishedPolicy
import WindowsFidoLogon.Store.SaveAtomic

/-!
# `Save` and the bypass window

Policy lives in three places: the vault, the list of enforced SIDs and the flag
that enables the filter.  `NoWindow` says that at one point the three agree well
enough that nobody who was enforced, and stays so, can sign in without a key.

Every point of a `Save` is the end of a run in which the process stops there, so
the statement about all environments covers all of them.
-/

namespace WindowsFidoLogon
namespace LocalCredentialStore

open Program Text Machine Environment

variable {P : Platform} {E : Environment}

/-! ## Runs without faults -/

/-- Every write succeeds. -/
def WritesSucceed (E : Environment) : Prop :=
  ∀ n, E.stepFault n = .done

theorem atomicStep_of_writesSucceed (hWrites : WritesSucceed E) (effect : Machine → Machine)
    (m : Machine) : E.atomicStep effect m = (.returned (.ok ()), effect m.next) := by
  unfold Environment.atomicStep
  rw [hWrites]

theorem copyFile_of_writesSucceed (hWrites : WritesSucceed E) {source target : VaultFile}
    {m : Machine} {c : Bytes} (hc : m.disk source = some c) :
    E.copyFile source target m = (.returned (.ok ()), m.next.setFile target (some c)) := by
  unfold Environment.copyFile Environment.fileStep
  rw [hc, hWrites]

theorem moveFile_of_writesSucceed (hWrites : WritesSucceed E) {source target : VaultFile}
    {m : Machine} {c : Bytes} (hc : m.disk source = some c) :
    E.moveFile source target m = (.returned (.ok ()), moved source target c m.next) := by
  unfold Environment.moveFile
  rw [hc]
  exact atomicStep_of_writesSucceed hWrites _ m

theorem writeProtectedFile_of_writesSucceed (hWrites : WritesSucceed E) (file : VaultFile)
    (plaintext : Bytes) (m : Machine) :
    writeProtectedFile P E file plaintext m =
      (.returned (.ok ()), m.next.setFile file (some (P.cryptProtectData m.tick plaintext))) := by
  unfold writeProtectedFile Environment.fileStep
  rw [hWrites]

/-- The call came back with success. -/
def Succeeded (o : Outcome Bytes (Except DWORD Unit)) : Prop :=
  o = .returned (.ok ())

theorem synchronizeEnforcedRegistry_of_writesSucceed (hWrites : WritesSucceed E) (v : Vault)
    (m : Machine) : Meets (synchronizeEnforcedRegistry E v) m fun o _ => Succeeded o := by
  unfold synchronizeEnforcedRegistry
  rw [meets_bind_returned (atomicStep_of_writesSucceed hWrites _ _)]
  dsimp only
  rw [meets_bind_returned (atomicStep_of_writesSucceed hWrites _ _)]
  dsimp only
  unfold Meets
  rw [atomicStep_of_writesSucceed hWrites]
  rfl

/-- When writes succeed, the search for the previous vault comes to an end, and leaves the
temporary file alone. -/
theorem keepBackup_of_writesSucceed (hWrites : WritesSucceed E) (m : Machine) :
    Meets (keepBackup P E) m fun o n =>
      n.disk .temporary = m.disk .temporary ∧ ∃ previous, o = .returned (.ok previous) := by
  have hRead : ∀ (file : VaultFile) (k : Machine), Meets (readValidVault P E file) k fun o n =>
      n.disk = k.disk ∧ ∃ r, o = .returned r ∧ ∀ v, r = .ok v → ∃ c, k.disk file = some c := by
    intro file k
    refine meets_readValidVault (fun _ => ⟨rfl, _, rfl, nofun⟩) (fun c v hc _ _ => ⟨rfl, _, rfl, ?_⟩)
      (fun _ _ _ _ => ⟨rfl, _, rfl, nofun⟩)
    exact fun _ _ => ⟨c, hc⟩
  unfold keepBackup
  rw [meets_bind]
  refine (hRead .primary m).mono ?_
  rintro _ n ⟨hDisk, r, rfl, hr⟩
  cases r with
  | ok previous =>
      obtain ⟨c, hc⟩ := hr previous rfl
      rw [← hDisk] at hc
      dsimp only
      rw [meets_bind_returned (copyFile_of_writesSucceed hWrites hc)]
      exact ⟨by simp [hDisk], _, rfl⟩
  | error _ =>
      dsimp only
      rw [meets_bind]
      refine (hRead .backup n).mono ?_
      rintro _ k ⟨hDisk', r', rfl, _⟩
      have hTemp : k.disk .temporary = m.disk .temporary := by rw [hDisk', hDisk]
      cases r' with
      | ok previous => exact ⟨hTemp, _, rfl⟩
      | error _ => exact ⟨hTemp, _, rfl⟩

theorem replacePrimary_of_writesSucceed (hWrites : WritesSucceed E) (v₁ : Vault)
    (previous : Option Vault) {m : Machine} {c : Bytes} (hc : m.disk .temporary = some c) :
    Meets (replacePrimary E v₁ previous) m fun o _ => Succeeded o := by
  unfold replacePrimary
  rw [meets_bind_returned (moveFile_of_writesSucceed hWrites hc)]
  dsimp only
  split_ifs
  · rfl
  · rw [meets_bind]
    refine (synchronizeEnforcedRegistry_of_writesSucceed hWrites v₁ _).mono ?_
    rintro _ n rfl
    rfl

theorem publishAndReplace_of_writesSucceed (hWrites : WritesSucceed E) (v₁ : Vault)
    (previous : Option Vault) {m : Machine} {c : Bytes} (hc : m.disk .temporary = some c) :
    Meets (publishAndReplace E v₁ previous) m fun o _ => Succeeded o := by
  unfold publishAndReplace
  split_ifs
  · rw [meets_bind]
    refine ((meets_synchronizeEnforcedRegistry v₁ m).and
      (synchronizeEnforcedRegistry_of_writesSucceed hWrites v₁ m)).mono ?_
    rintro _ n ⟨⟨hDisk, _⟩, rfl⟩
    exact replacePrimary_of_writesSucceed hWrites v₁ previous (by rw [hDisk]; exact hc)
  · exact replacePrimary_of_writesSucceed hWrites v₁ previous hc

/-- `Save` takes the vault. -/
def Accepted (P : Platform) (v : Vault) : Prop :=
  isVaultValid P v = true ∧ ∃ plaintext, P.dump (vaultToJson P v) = .ok plaintext

/-- `Save` returns true when it takes the vault and no write fails. -/
theorem save_of_writesSucceed (hWrites : WritesSucceed E) {v₁ : Vault}
    (hAccepted : Accepted P v₁) (m : Machine) :
    Meets (save P E v₁) m fun o _ => Succeeded o := by
  obtain ⟨hValid, plaintext, hDump⟩ := hAccepted
  unfold save
  rw [if_neg (by simp [hValid])]
  unfold ensureStoreDirectory
  rw [meets_bind_returned (atomicStep_of_writesSucceed hWrites _ _)]
  dsimp only
  rw [hDump, ofExcept_ok, pure_bind,
    meets_bind_returned (writeProtectedFile_of_writesSucceed hWrites ..)]
  dsimp only
  rw [meets_bind]
  refine (keepBackup_of_writesSucceed hWrites _).mono ?_
  rintro _ n ⟨hTemp, previous, rfl⟩
  rw [setFile_disk, Function.update_self] at hTemp
  exact publishAndReplace_of_writesSucceed hWrites v₁ previous hTemp

/-- A vault that `Save` does not take leaves files and registry as they are. -/
theorem save_of_not_accepted {v₁ : Vault} (hAccepted : ¬ Accepted P v₁) (m : Machine) :
    Meets (save P E v₁) m fun _ n => n.disk = m.disk ∧ n.registry = m.registry := by
  unfold save
  split_ifs with hInvalid
  · exact ⟨rfl, rfl⟩
  · rw [meets_bind]
    refine meets_atomicStep ?_ (fun _ => ⟨rfl, rfl⟩) ⟨rfl, rfl⟩ ⟨rfl, rfl⟩
    cases hDump : P.dump (vaultToJson P v₁) with
    | error e => exact ⟨rfl, rfl⟩
    | ok plaintext => exact absurd ⟨by simpa using hInvalid, plaintext, hDump⟩ hAccepted

/-! ## The three places -/

/-- The vault enforces a SID: an enforced account compares equal to it. -/
def enforces (v : Vault) (sid : WString) : Bool :=
  v.accounts.any fun account => account.enforced && wcsicmpEq account.sid sid

/-- `EnforcedSids` lists a SID, as `IsSidEnforced` finds it. -/
def listed (r : Registry) (sid : WString) : Bool :=
  (RegistryReader.getMultiSZ r.enforcedSids).any fun value => wcsicmpEq value sid

/-- `enable_filter` is 1. -/
def filterOn (r : Registry) : Bool :=
  r.enableFilter == some { type := .dword, data := [1, 0, 0, 0] }

/-- A vault and a policy, on the way from `v₀` to `v₁`, agree. -/
structure Covered (v₀ v₁ v : Vault) (r : Registry) : Prop where
  filter : hasEnforcedAccounts v = true → filterOn r = true
  enforced : ∀ sid, enforces v₀ sid = true → enforces v₁ sid = true → enforces v sid = true
  listed : ∀ sid, enforces v₀ sid = true → enforces v₁ sid = true → listed r sid = true

/-- At this point the vault that `Load` returns agrees with the published policy. -/
def NoWindow (P : Platform) (v₀ v₁ : Vault) (n : Machine) : Prop :=
  ∃ v, (∀ E, ReadsSucceed E → (load P E n).1 = .returned (.ok v)) ∧ Covered v₀ v₁ v n.registry

/-- A SID can be read back from the published list of a vault. -/
def legible (v : Vault) (sid : WString) : Bool :=
  (legibleSids v).any fun value => wcsicmpEq value sid

theorem listed_of_enforcedSids {r : Registry} {v : Vault}
    (h : r.enforcedSids = some (enforcedSidsValue v)) (sid : WString) :
    LocalCredentialStore.listed r sid = legible v sid := by
  rw [LocalCredentialStore.listed, h, getMultiSZ_enforcedSidsValue, legible]

theorem filterOn_of_enableFilter {r : Registry} {v : Vault}
    (h : r.enableFilter = some (enableFilterValue v)) : filterOn r = hasEnforcedAccounts v := by
  rw [filterOn, h, enableFilterValue]
  cases hasEnforcedAccounts v <;> rfl

theorem hasEnforcedAccounts_of_enforces {v : Vault} {sid : WString} (h : enforces v sid = true) :
    hasEnforcedAccounts v = true := by
  simp only [enforces, List.any_eq_true, Bool.and_eq_true] at h
  obtain ⟨a, ha, hEnforced, _⟩ := h
  exact List.any_eq_true.mpr ⟨a, ha, hEnforced⟩

/-- If what can be read back is enough, every point of a `Save` is covered. -/
theorem SavePoint.covered {v₀ v₁ w v : Vault} {r : Registry}
    (hPoint : SavePoint v₀ v₁ w (publishedPolicy v₀) v r)
    (hOld : ∀ sid, enforces v₀ sid = true → enforces v₁ sid = true → legible v₀ sid = true)
    (hNew : ∀ sid, enforces v₀ sid = true → enforces v₁ sid = true → legible v₁ sid = true)
    (hKept : ∀ sid, enforces v₀ sid = true → enforces v₁ sid = true → enforces w sid = true)
    (hNone : hasEnforcedAccounts v₁ = false → hasEnforcedAccounts w = false) :
    Covered v₀ v₁ v r := by
  have hSelf : ∀ sid, enforces v₀ sid = true → enforces v₁ sid = true → enforces v₀ sid = true :=
    fun _ h _ => h
  have hVoid : hasEnforcedAccounts v₁ = false → ∀ {p : WString → Prop} (sid : WString),
      enforces v₀ sid = true → enforces v₁ sid = true → p sid := by
    intro hFalse p sid _ h
    rw [hasEnforcedAccounts_of_enforces h] at hFalse
    cases hFalse
  -- which of the two lists stands at each point
  have hOldList : ∀ {r : Registry}, r.enforcedSids = some (enforcedSidsValue v₀) →
      ∀ sid, enforces v₀ sid = true → enforces v₁ sid = true →
        LocalCredentialStore.listed r sid = true := fun hr sid h₀ h₁ => by
    rw [listed_of_enforcedSids hr]
    exact hOld sid h₀ h₁
  have hNewList : ∀ {r : Registry}, r.enforcedSids = some (enforcedSidsValue v₁) →
      ∀ sid, enforces v₀ sid = true → enforces v₁ sid = true →
        LocalCredentialStore.listed r sid = true := fun hr sid h₀ h₁ => by
    rw [listed_of_enforcedSids hr]
    exact hNew sid h₀ h₁
  have hOldFlag : ∀ {r : Registry}, r.enableFilter = some (enableFilterValue v₀) →
      hasEnforcedAccounts v₀ = true → filterOn r = true := fun hr h => by
    rw [filterOn_of_enableFilter hr, h]
  have hNewFlag : ∀ {r : Registry}, r.enableFilter = some (enableFilterValue v₁) →
      hasEnforcedAccounts v₁ = true → filterOn r = true := fun hr h => by
    rw [filterOn_of_enableFilter hr, h]
  cases hPoint with
  | untouched => exact ⟨hOldFlag rfl, hSelf, hOldList rfl⟩
  | announcing _ => exact ⟨hOldFlag rfl, hSelf, hNewList rfl⟩
  | announced hEnforced => exact ⟨fun _ => hNewFlag rfl hEnforced, hSelf, hNewList rfl⟩
  | revoking hEnforced hr =>
      rcases hr with rfl | rfl | rfl
      · exact ⟨hOldFlag rfl, hSelf, hOldList rfl⟩
      · exact ⟨hOldFlag rfl, hSelf, hOldList rfl⟩
      · exact ⟨fun _ => hNewFlag rfl hEnforced, hSelf, hOldList rfl⟩
  | restored => exact ⟨hOldFlag rfl, hSelf, hOldList rfl⟩
  | replaced =>
      refine ⟨fun hw => hNewFlag rfl ?_, hKept, hNewList rfl⟩
      by_contra hFalse
      rw [hNone (by simpa using hFalse)] at hw
      cases hw
  | withdrawing hFalse hr =>
      refine ⟨fun hw => ?_, hVoid hFalse, hVoid hFalse⟩
      rw [hNone hFalse] at hw
      cases hw
  | rolledBack hFalse hr =>
      refine ⟨?_, hVoid hFalse, hVoid hFalse⟩
      rcases hr with rfl | rfl | rfl <;> exact hOldFlag rfl
  | stranded hFalse hr =>
      refine ⟨fun hw => ?_, hVoid hFalse, hVoid hFalse⟩
      rw [hNone hFalse] at hw
      cases hw

theorem SaveEnd.covered {v₀ v₁ w v : Vault} {r : Registry} {compensated : Prop}
    {o : Outcome Bytes (Except DWORD Unit)}
    (hEnd : SaveEnd v₀ v₁ w (publishedPolicy v₀) compensated v r o)
    (hOld : ∀ sid, enforces v₀ sid = true → enforces v₁ sid = true → legible v₀ sid = true)
    (hNew : ∀ sid, enforces v₀ sid = true → enforces v₁ sid = true → legible v₁ sid = true)
    (hKept : ∀ sid, enforces v₀ sid = true → enforces v₁ sid = true → enforces w sid = true)
    (hNone : hasEnforcedAccounts v₁ = false → hasEnforcedAccounts w = false) :
    Covered v₀ v₁ v r := by
  have hPoint : SavePoint v₀ v₁ w (publishedPolicy v₀) v r := by
    match o, hEnd with
    | .returned (.ok ()), ⟨hv, hr⟩ =>
        rw [hv, hr]
        exact .replaced
    | .returned (.error _), h => exact h.1
    | .threw _, ⟨hv, hr⟩ =>
        rw [hv, hr]
        exact .untouched
    | .stopped, h => exact h
  exact hPoint.covered hOld hNew hKept hNone

/-! ## When there is no window -/

/-- The file of a vault can be read back after a `Save` that starts at `tick`. -/
structure ReadsBack (P : Platform) (v : Vault) (tick : Nat) : Prop where
  text : ∀ a ∈ v.accounts, WellFormed P a.sid
  size : ∀ plaintext, P.dump (vaultToJson P v) = .ok plaintext →
    (P.cryptProtectData (tick + 1) plaintext).length ≤ maximumFileBytes

/-- What the vaults have to be like for `Save` to open no window: the SIDs that both
enforce can be read back from either list, and a vault that ends enforcement can
be read back from its file. -/
structure NothingHidden (P : Platform) (v₀ v₁ : Vault) (tick : Nat) : Prop where
  old : ∀ sid, enforces v₀ sid = true → enforces v₁ sid = true → legible v₀ sid = true
  new : Accepted P v₁ →
    ∀ sid, enforces v₀ sid = true → enforces v₁ sid = true → legible v₁ sid = true
  final : Accepted P v₁ → hasEnforcedAccounts v₀ = true → hasEnforcedAccounts v₁ = false →
    ReadsBack P v₁ tick

theorem hasEnforcedAccounts_transcodedVault (v : Vault) :
    hasEnforcedAccounts (transcodedVault P v) = hasEnforcedAccounts v := by
  simp [hasEnforcedAccounts, transcodedVault, transcodedAccount, Function.comp_def]

theorem enforces_transcodedVault (hT : P.Transcodes) {v : Vault} (hv : isVaultValid P v = true)
    (hText : ∀ a ∈ v.accounts, WellFormed P a.sid) (sid : WString) :
    enforces (transcodedVault P v) sid = enforces v sid := by
  have hValid := isVaultValid_iff.mp hv
  have hAccount : ∀ a ∈ v.accounts, ((transcodedAccount P a).enforced &&
      wcsicmpEq (transcodedAccount P a).sid sid) = (a.enforced && wcsicmpEq a.sid sid) := by
    intro a ha
    have hLength := (hValid.accounts a ha).sid_length
    unfold transcodedAccount
    rw [transcoded_of_wellFormed hT (by omega) (hText a ha)]
  unfold enforces transcodedVault
  rw [List.any_map, Bool.eq_iff_iff, List.any_eq_true, List.any_eq_true]
  constructor
  · rintro ⟨a, ha, h⟩
    exact ⟨a, ha, (hAccount a ha).symm.trans h⟩
  · rintro ⟨a, ha, h⟩
    exact ⟨a, ha, (hAccount a ha).trans h⟩

/-- Once its file is in place, a vault is loaded as its text says, or it is not and
the old one is. -/
theorem replacement_cases (hT : P.Transcodes) (hProtects : P.Protects) (hParses : P.ParsesDumps)
    {v₀ v₁ : Vault} {tick : Nat} (hAccepted : Accepted P v₁) :
    (ReadsBack P v₁ tick ∧ replacement P v₀ v₁ tick = transcodedVault P v₁) ∨
      (¬ ReadsBack P v₁ tick ∧ replacement P v₀ v₁ tick = v₀) := by
  obtain ⟨hValid, plaintext, hDump⟩ := hAccepted
  have hReplacement : replacement P v₀ v₁ tick =
      opensAs P v₀ (P.cryptProtectData (tick + 1) plaintext) := by
    unfold replacement
    rw [hDump]
  rw [hReplacement, opensAs, vaultOf_seal hProtects hParses hValid hDump]
  by_cases hSize : (P.cryptProtectData (tick + 1) plaintext).length > maximumFileBytes
  · rw [if_pos hSize]
    refine .inr ⟨fun h => ?_, rfl⟩
    have := h.size plaintext hDump
    omega
  · rw [if_neg hSize]
    by_cases hText : isVaultValid P (transcodedVault P v₁) = true
    · rw [if_pos hText]
      refine .inl ⟨⟨(isVaultValid_transcodedVault_iff hT hValid).mp hText, ?_⟩, rfl⟩
      intro plaintext' hDump'
      rw [hDump] at hDump'
      cases hDump'
      exact Nat.not_lt.mp hSize
    · rw [if_neg hText]
      exact .inr ⟨fun h => hText ((isVaultValid_transcodedVault_iff hT hValid).mpr h.text), rfl⟩

/-- An environment in which the process stops at the next write. -/
def stopping : Environment :=
  { Reference.calm with stepFault := fun _ => .stops .untouched }

theorem save_stopping (v₁ : Vault) (m : Machine) :
    Meets (save P stopping v₁) m fun _ n => n.registry = m.registry := by
  unfold save
  split_ifs
  · rfl
  · rfl

theorem noWindow_iff {v₀ v₁ : Vault} {n : Machine} :
    NoWindow P v₀ v₁ n ↔
      ∃ v, loadedVault P n.disk = some v ∧ Covered v₀ v₁ v n.registry := by
  have hCalm : ReadsSucceed Reference.calm := fun _ _ => rfl
  constructor
  · rintro ⟨v, hLoad, hCovered⟩
    exact ⟨v, (load_returned_iff hCalm).mp (hLoad _ hCalm), hCovered⟩
  · rintro ⟨v, hLoaded, hCovered⟩
    exact ⟨v, fun E hReads => (load_returned_iff hReads).mpr hLoaded, hCovered⟩

/-- `Save` opens no window, wherever it is stopped and whatever fails, exactly if
nothing is hidden: neither a SID behind an empty piece of the list nor a vault
behind a file that cannot be read back. -/
theorem save_noWindow_iff (hT : P.Transcodes) (hProtects : P.Protects) (hParses : P.ParsesDumps)
    {m : Machine} {v₀ v₁ : Vault}
    (h₀ : ∀ E, ReadsSucceed E → (load P E m).1 = .returned (.ok v₀))
    (hPolicy : m.registry = publishedPolicy v₀) :
    (∀ E, ReadsSucceed E → NoWindow P v₀ v₁ (save P E v₁ m).2) ↔ NothingHidden P v₀ v₁ m.tick := by
  have hCalm : ReadsSucceed Reference.calm := fun _ _ => rfl
  have hLoaded := (load_returned_iff hCalm).mp (h₀ _ hCalm)
  constructor
  · intro hAll
    -- without faults the new policy is published over the replaced vault
    have hReplaced : Accepted P v₁ →
        Covered v₀ v₁ (replacement P v₀ v₁ m.tick) (publishedPolicy v₁) := by
      intro hAccepted
      have hWrites : WritesSucceed Reference.calm := fun _ => rfl
      have hEnds : Meets (save P Reference.calm v₁) m
          (Ended P v₀ v₁ (replacement P v₀ v₁ m.tick) m) := save_ends hCalm hLoaded
      have hDone : Succeeded (save P Reference.calm v₁ m).1 :=
        save_of_writesSucceed hWrites hAccepted m
      obtain ⟨v, hv, hEnd⟩ := hEnds
      rw [hDone] at hEnd
      obtain ⟨rfl, hReg⟩ := hEnd
      obtain ⟨v', hv', hCovered⟩ := noWindow_iff.mp (hAll _ hCalm)
      rw [hv] at hv'
      cases hv'
      rw [hReg] at hCovered
      exact hCovered
    refine ⟨fun sid hOld hNew => ?_, fun hAccepted sid hOld hNew => ?_, fun hAccepted hOld hNew => ?_⟩
    · obtain ⟨v, _, hCovered⟩ := noWindow_iff.mp (hAll stopping fun _ _ => rfl)
      have hReg : (save P stopping v₁ m).2.registry = m.registry := save_stopping v₁ m
      rw [hReg, hPolicy] at hCovered
      exact (listed_of_enforcedSids rfl sid).symm.trans (hCovered.listed sid hOld hNew)
    · exact (listed_of_enforcedSids rfl sid).symm.trans ((hReplaced hAccepted).listed sid hOld hNew)
    · rcases replacement_cases hT hProtects hParses hAccepted with ⟨hBack, _⟩ | ⟨_, hStays⟩
      · exact hBack
      · have hFilter := (hReplaced hAccepted).filter
        rw [hStays, filterOn_of_enableFilter rfl, hNew] at hFilter
        exact absurd (hFilter hOld) (by simp)
  · intro hHidden E hReads
    rw [noWindow_iff]
    by_cases hAccepted : Accepted P v₁
    · have hEnds : Meets (save P E v₁) m (Ended P v₀ v₁ (replacement P v₀ v₁ m.tick) m) :=
        save_ends hReads hLoaded
      obtain ⟨v, hv, hEnd⟩ := hEnds
      have hValid := hAccepted.1
      have hKept : ∀ sid, enforces v₀ sid = true → enforces v₁ sid = true →
          enforces (replacement P v₀ v₁ m.tick) sid = true := by
        intro sid hOld hNew
        rcases replacement_cases hT hProtects hParses hAccepted with ⟨hBack, hIs⟩ | ⟨_, hIs⟩ <;> rw [hIs]
        · rw [enforces_transcodedVault hT hValid hBack.text]
          exact hNew
        · exact hOld
      have hNone : hasEnforcedAccounts v₁ = false →
          hasEnforcedAccounts (replacement P v₀ v₁ m.tick) = false := by
        intro hFalse
        rcases replacement_cases hT hProtects hParses hAccepted with ⟨_, hIs⟩ | ⟨hNot, hIs⟩ <;> rw [hIs]
        · rw [hasEnforcedAccounts_transcodedVault, hFalse]
        · by_contra hOld
          exact hNot (hHidden.final hAccepted (by simpa using hOld) hFalse)
      refine ⟨v, hv, ?_⟩
      rw [hPolicy] at hEnd
      exact hEnd.covered hHidden.old (hHidden.new hAccepted) hKept hNone
    · -- nothing was touched
      have hSame : Meets (save P E v₁) m fun _ n => n.disk = m.disk ∧ n.registry = m.registry :=
        save_of_not_accepted hAccepted m
      obtain ⟨hDisk, hReg⟩ := hSame
      refine ⟨v₀, by rw [hDisk]; exact hLoaded, ?_⟩
      rw [hReg, hPolicy]
      refine ⟨fun h => ?_, fun _ h _ => h, fun sid hOld hNew => ?_⟩
      · rw [filterOn_of_enableFilter rfl, h]
      · rw [listed_of_enforcedSids rfl]
        exact hHidden.old sid hOld hNew

section Example

open Reference

/-- Nothing is hidden when the first key of `alice` is saved. -/
theorem save_noWindow_example :
    (∀ E, ReadsSucceed E → NoWindow (platform {}) (vault []) enforcingVault
      (save (platform {}) E enforcingVault emptyMachine).2) ↔
      NothingHidden (platform {}) (vault []) enforcingVault emptyMachine.tick := by
  refine save_noWindow_iff (transcodes _) (protects _) (parsesDumps _) (fun E hReads => ?_) rfl
  rw [load_returned_iff hReads]
  decide +kernel

/-- An account whose SID was given with a NUL behind it, as a request may do. -/
def bob : AccountRecord :=
  { alice true [credential (text "AAAB")] with
    sid := wtext "S-1-5-21-1-2-3-1002" ++ [0], username := wtext "bob" }

/-- The empty piece after that SID ends the published list, and hides `alice`. -/
def hidingVault : Vault := vault [bob, alice true [credential (text "AAAA")]]

/-- A start as it should be from which a `Save` passes through a point, the very
first one, where an enforced SID is not listed. -/
theorem save_window_counterexample :
    (∀ E, ReadsSucceed E →
      (load (platform {}) E (machine (some hidingVault) none)).1 = .returned (.ok hidingVault)) ∧
      (machine (some hidingVault) none).registry = publishedPolicy hidingVault ∧
      enforces hidingVault aliceSid = true ∧
      ¬ ∀ E, ReadsSucceed E → NoWindow (platform {}) hidingVault hidingVault
        (save (platform {}) E hidingVault (machine (some hidingVault) none)).2 := by
  refine ⟨fun E hReads => ?_, rfl, by decide +kernel, fun hAll => ?_⟩
  · rw [load_returned_iff hReads]
    decide +kernel
  · obtain ⟨v, _, hCovered⟩ := noWindow_iff.mp (hAll stopping fun _ _ => rfl)
    have hReg : (save (platform {}) stopping hidingVault (machine (some hidingVault) none)).2.registry =
        publishedPolicy hidingVault := save_stopping hidingVault _
    have hListed := hCovered.listed aliceSid (by decide +kernel) (by decide +kernel)
    rw [hReg, listed_of_enforcedSids rfl] at hListed
    have hHidden : legible hidingVault aliceSid = false := by decide +kernel
    rw [hHidden] at hListed
    cases hListed

end Example

end LocalCredentialStore
end WindowsFidoLogon
