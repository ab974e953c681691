import WindowsFidoLogon.Store.Sparing

/-!
# What a refresh makes of the stored vault

`RefreshLocalAccounts` asks for the name of every account in turn.  An account that is
gone is dropped, one that was renamed gets its new name, and any other failure ends the
refresh before anything was written.

* `firstFailure`, `pruned`: the result in terms of the answers, without the loop.
* `refreshAccounts_answers`: the loop computes it.
* `refreshLocalAccounts_answers`: how the run goes on, by the two paths of writing.
* `refreshLocalAccounts_prunes_iff`: what is stored after a refresh that returned true is
  the pruned vault, and stays it, exactly where nothing had to be changed or the pruned
  vault survives the way through its file.
-/

namespace WindowsFidoLogon
namespace LocalCredentialStore

open Program Environment Machine Text LocalAccount

variable {P : Platform} {E : Environment} {outcome : WString → Except DWORD WString}

/-! ## The result in terms of the answers -/

/-- The two errors that say there is no such local user any more. -/
def Gone (e : DWORD) : Prop :=
  e = ERROR_NONE_MAPPED ∨ e = ERROR_NO_SUCH_USER

instance : DecidablePred Gone := fun _ => inferInstanceAs (Decidable (_ ∨ _))

/-- The error of an account that could not be resolved for another reason. -/
def resolveFailure (outcome : WString → Except DWORD WString) (account : AccountRecord) :
    Option DWORD :=
  match outcome account.sid with
  | .error e => if Gone e then none else some e
  | .ok _ => none

/-- The first such error in the order of the accounts. -/
def firstFailure (outcome : WString → Except DWORD WString) (accounts : List AccountRecord) :
    Option DWORD :=
  accounts.findSome? (resolveFailure outcome)

/-- The account under its current name, which is only replaced where it differs by more
than case. -/
def keptAccount (outcome : WString → Except DWORD WString) (account : AccountRecord) :
    Option AccountRecord :=
  match outcome account.sid with
  | .ok name =>
      some (if wcsicmpEq account.username name then account else { account with username := name })
  | .error _ => none

/-- The accounts that can be resolved, in their order. -/
def prunedAccounts (outcome : WString → Except DWORD WString) (accounts : List AccountRecord) :
    List AccountRecord :=
  accounts.filterMap (keptAccount outcome)

/-- The vault with exactly the accounts that can be resolved. -/
def pruned (outcome : WString → Except DWORD WString) (v : Vault) : Vault :=
  { v with accounts := prunedAccounts outcome v.accounts }

section Account

variable {a : AccountRecord} {e : DWORD} {name : WString}

theorem resolveFailure_of_gone (hOutcome : outcome a.sid = .error e) (hGone : Gone e) :
    resolveFailure outcome a = none := by
  unfold resolveFailure
  rw [hOutcome]
  exact if_pos hGone

theorem resolveFailure_of_failed (hOutcome : outcome a.sid = .error e) (hOther : ¬ Gone e) :
    resolveFailure outcome a = some e := by
  unfold resolveFailure
  rw [hOutcome]
  exact if_neg hOther

theorem resolveFailure_of_found (hOutcome : outcome a.sid = .ok name) :
    resolveFailure outcome a = none := by
  unfold resolveFailure
  rw [hOutcome]

theorem keptAccount_of_error (hOutcome : outcome a.sid = .error e) :
    keptAccount outcome a = none := by
  unfold keptAccount
  rw [hOutcome]

theorem keptAccount_of_found (hOutcome : outcome a.sid = .ok name) :
    keptAccount outcome a =
      some (if wcsicmpEq a.username name then a else { a with username := name }) := by
  unfold keptAccount
  rw [hOutcome]

end Account

theorem pruned_eq_self_iff {v : Vault} :
    pruned outcome v = v ↔ prunedAccounts outcome v.accounts = v.accounts :=
  ⟨congrArg Vault.accounts, fun h => by rw [pruned, h]⟩

/-- What is kept of an account has its SID and a name that is up to date. -/
theorem of_keptAccount_eq_some {a b : AccountRecord} (h : keptAccount outcome a = some b) :
    b = { a with username := b.username } ∧
      ∃ name, outcome a.sid = .ok name ∧ wcsicmpEq b.username name = true := by
  cases hOutcome : outcome a.sid with
  | error e =>
      rw [keptAccount_of_error hOutcome] at h
      cases h
  | ok name =>
      rw [keptAccount_of_found hOutcome] at h
      by_cases hSame : wcsicmpEq a.username name = true
      · rw [if_pos hSame] at h
        cases h
        exact ⟨rfl, name, rfl, hSame⟩
      · rw [if_neg hSame] at h
        cases h
        exact ⟨rfl, name, rfl, wcsicmpEq_refl name⟩

/-- An account that is up to date is kept as it is. -/
theorem keptAccount_of_current {a : AccountRecord} {name : WString}
    (hOutcome : outcome a.sid = .ok name) (hSame : wcsicmpEq a.username name = true) :
    keptAccount outcome a = some a := by
  rw [keptAccount_of_found hOutcome, if_pos hSame]

/-- Pruning twice is pruning once. -/
theorem prunedAccounts_prunedAccounts (A : List AccountRecord) :
    prunedAccounts outcome (prunedAccounts outcome A) = prunedAccounts outcome A := by
  have hKept : ∀ b ∈ prunedAccounts outcome A, keptAccount outcome b = some b := by
    intro b hb
    obtain ⟨a, -, ha⟩ := List.mem_filterMap.mp hb
    obtain ⟨hFields, name, hOutcome, hSame⟩ := of_keptAccount_eq_some ha
    rw [hFields] at hSame ⊢
    exact keptAccount_of_current hOutcome hSame
  generalize prunedAccounts outcome A = B at hKept
  unfold prunedAccounts
  rw [List.filterMap_congr hKept, List.filterMap_some]

/-- Every account that is left can be resolved. -/
theorem firstFailure_prunedAccounts (A : List AccountRecord) :
    firstFailure outcome (prunedAccounts outcome A) = none := by
  unfold firstFailure
  rw [List.findSome?_eq_none_iff]
  intro b hb
  obtain ⟨a, -, ha⟩ := List.mem_filterMap.mp hb
  obtain ⟨hFields, name, hOutcome, -⟩ := of_keptAccount_eq_some ha
  rw [hFields]
  exact resolveFailure_of_found hOutcome

/-! ## The loop -/

/-- What `ResolveLocalSid` answers for these accounts when it is asked for one after the
other from tick `t` on. -/
def Answers (P : Platform) (E : Environment) (outcome : WString → Except DWORD WString) :
    Nat → List AccountRecord → Prop
  | _, [] => True
  | t, account :: rest =>
      resolveLocalSid P (E.accounts t) account.sid = outcome account.sid ∧
        Answers P E outcome (t + 1) rest

/-- What the loop of `RefreshLocalAccounts` comes to: the accounts, and whether there was
anything to change. -/
def refreshed (outcome : WString → Except DWORD WString) (accounts : List AccountRecord) :
    Except DWORD (List AccountRecord × Bool) :=
  match firstFailure outcome accounts with
  | some e => .error e
  | none => .ok (prunedAccounts outcome accounts, prunedAccounts outcome accounts ≠ accounts)

theorem refreshed_of_failure {A : List AccountRecord} {e : DWORD}
    (h : firstFailure outcome A = some e) : refreshed outcome A = .error e := by
  unfold refreshed
  rw [h]

theorem refreshed_of_none {A : List AccountRecord} (h : firstFailure outcome A = none) :
    refreshed outcome A = .ok (prunedAccounts outcome A, prunedAccounts outcome A ≠ A) := by
  unfold refreshed
  rw [h]

variable {a : AccountRecord} {A : List AccountRecord}

theorem firstFailure_cons_of_none (h : resolveFailure outcome a = none) :
    firstFailure outcome (a :: A) = firstFailure outcome A := by
  unfold firstFailure
  rw [List.findSome?_cons, h]

/-- An account that cannot be resolved for another reason ends the loop. -/
theorem firstFailure_cons_of_some {e : DWORD} (h : resolveFailure outcome a = some e) :
    firstFailure outcome (a :: A) = some e := by
  unfold firstFailure
  rw [List.findSome?_cons, h]

/-- An account that is gone is dropped, which is a change. -/
theorem refreshed_cons_gone {e : DWORD} (hOutcome : outcome a.sid = .error e) (hGone : Gone e) :
    refreshed outcome (a :: A) = (refreshed outcome A).map fun r => (r.1, true) := by
  have hDropped : prunedAccounts outcome (a :: A) = prunedAccounts outcome A :=
    List.filterMap_cons_none (keptAccount_of_error hOutcome)
  have hFailure : firstFailure outcome (a :: A) = firstFailure outcome A :=
    firstFailure_cons_of_none (resolveFailure_of_gone hOutcome hGone)
  cases hFirst : firstFailure outcome A with
  | some e' =>
      rw [refreshed_of_failure hFirst, refreshed_of_failure (hFailure.trans hFirst)]
      rfl
  | none =>
      -- the list has become shorter
      have hChanged : prunedAccounts outcome A ≠ a :: A := by
        intro hSame
        have hShorter : (prunedAccounts outcome A).length ≤ A.length := List.length_filterMap_le _ _
        rw [hSame, List.length_cons] at hShorter
        omega
      rw [refreshed_of_none hFirst, refreshed_of_none (hFailure.trans hFirst), hDropped,
        decide_eq_true hChanged]
      rfl

/-- An account that was found is kept, and is a change if its name is out of date. -/
theorem refreshed_cons_found {name : WString} (hOutcome : outcome a.sid = .ok name) :
    refreshed outcome (a :: A) = (refreshed outcome A).map fun r =>
      ((if !wcsicmpEq a.username name then { a with username := name } else a) :: r.1,
        !wcsicmpEq a.username name || r.2) := by
  have hKept : prunedAccounts outcome (a :: A) =
      (if !wcsicmpEq a.username name then { a with username := name } else a) ::
        prunedAccounts outcome A := by
    apply List.filterMap_cons_some
    rw [keptAccount_of_found hOutcome]
    cases wcsicmpEq a.username name <;> rfl
  have hFailure : firstFailure outcome (a :: A) = firstFailure outcome A :=
    firstFailure_cons_of_none (resolveFailure_of_found hOutcome)
  cases hFirst : firstFailure outcome A with
  | some e' =>
      rw [refreshed_of_failure hFirst, refreshed_of_failure (hFailure.trans hFirst)]
      rfl
  | none =>
      rw [refreshed_of_none hFirst, refreshed_of_none (hFailure.trans hFirst), hKept]
      by_cases hSame : wcsicmpEq a.username name = true
      · simp [hSame, Except.map]
      · -- the name that was found is not the old one
        have hOther : ¬ { a with username := name } = a := by
          intro hEq
          have hName : name = a.username := congrArg AccountRecord.username hEq
          rw [hName] at hSame
          exact hSame (wcsicmpEq_refl _)
        simp [hSame, hOther, Except.map]

/-- The loop asks for the accounts in their order, and stops at the first failure. -/
theorem refreshAccounts_answers {A : List AccountRecord} {m : Machine}
    (hAnswers : Answers P E outcome m.tick A) :
    ∃ n, refreshAccounts P E A m = (.returned (refreshed outcome A), n) ∧ Quiet m n ∧
      (firstFailure outcome A = none → n.tick = m.tick + A.length) := by
  induction A generalizing m with
  | nil => exact ⟨m, rfl, Std.Refl.refl m, fun _ => rfl⟩
  | cons a A ih =>
      obtain ⟨hFirst, hRest⟩ := hAnswers
      obtain ⟨n, hRun, hQuiet, hTick⟩ := ih (m := m.next) hRest
      have hLater : Quiet m n := Trans.trans (Quiet.next m) hQuiet
      have hAsk : (ask E.accounts) m = (.returned (E.accounts m.tick), m.next) := rfl
      have hCount : resolveFailure outcome a = none → firstFailure outcome (a :: A) = none →
          n.tick = m.tick + (a :: A).length := by
        intro hNone hAll
        rw [hTick ((firstFailure_cons_of_none hNone).symm.trans hAll), List.length_cons]
        show m.tick + 1 + A.length = m.tick + (A.length + 1)
        omega
      unfold refreshAccounts
      rw [bind_returned hAsk, hFirst]
      cases hOutcome : outcome a.sid with
      | error e =>
          dsimp only
          by_cases hGone : e = ERROR_NONE_MAPPED ∨ e = ERROR_NO_SUCH_USER
          · refine ⟨n, ?_, hLater, hCount (resolveFailure_of_gone hOutcome hGone)⟩
            rw [if_pos hGone, bind_returned hRun, refreshed_cons_gone hOutcome hGone]
            cases refreshed outcome A <;> rfl
          · have hFailed : firstFailure outcome (a :: A) = some e :=
              firstFailure_cons_of_some (resolveFailure_of_failed hOutcome hGone)
            refine ⟨m.next, ?_, Quiet.next m, fun hAll => ?_⟩
            · rw [if_neg hGone, refreshed_of_failure hFailed]
              rfl
            · rw [hFailed] at hAll
              cases hAll
      | ok name =>
          dsimp only
          refine ⟨n, ?_, hLater, hCount (resolveFailure_of_found hOutcome)⟩
          rw [bind_returned hRun, refreshed_cons_found hOutcome]
          cases refreshed outcome A <;> rfl

/-! ## The run -/

/-- When the loop begins: a load reads the primary file, and the backup only if it has to. -/
def loopTick (P : Platform) (m : Machine) : Nat :=
  m.tick + if (vaultIn P m.disk .primary).isSome then 1 else 2

/-- When reads succeed, a read takes one tick and returns the vault of the file, if any. -/
theorem readValidVault_of_readsSucceed (hReads : ReadsSucceed E) (file : VaultFile) (m : Machine) :
    ∃ r, readValidVault P E file m = (.returned r, m.next) ∧ r.toOption = vaultIn P m.disk file := by
  unfold readValidVault vaultIn
  cases m.disk file with
  | none => exact ⟨_, rfl, rfl⟩
  | some content =>
      dsimp only
      rw [hReads]
      exact ⟨_, rfl, rfl⟩

/-- How a refresh begins: it loads the stored vault. -/
theorem loadOrCreate_stored (hReads : ReadsSucceed E) {m : Machine} {v : Vault}
    (hStored : loadedVault P m.disk = some v) :
    ∃ k, loadOrCreate P E m = (.returned (.ok v), k) ∧ Unseen m k ∧ k.tick = loopTick P m := by
  obtain ⟨r, hRead, hVault⟩ := readValidVault_of_readsSucceed (P := P) hReads .primary m
  unfold loadOrCreate load loopTick
  simp only [bind_assoc]
  rw [bind_returned hRead, ← hVault]
  cases r with
  | ok w =>
      obtain rfl : w = v := by
        rw [loadedVault_of_primary hVault.symm] at hStored
        exact Option.some.inj hStored
      exact ⟨_, rfl, ⟨rfl, rfl, failures_loaded _ _ _⟩, rfl⟩
  | error e =>
      have hNone : vaultIn P m.disk .primary = none := hVault.symm
      obtain ⟨r', hRead', hVault'⟩ := readValidVault_of_readsSucceed (P := P) hReads .backup m.next
      dsimp only
      simp only [bind_assoc]
      rw [bind_returned hRead']
      -- the primary file holds no vault, so the backup holds the stored one
      rw [loadedVault, hNone, Option.none_or] at hStored
      have hBackup : r'.toOption = some v := hVault'.trans hStored
      cases r' with
      | error e' => cases hBackup
      | ok w =>
          obtain rfl : w = v := Option.some.inj hBackup
          exact ⟨_, rfl, ⟨rfl, rfl, failures_loaded _ _ _⟩, rfl⟩

variable {m : Machine} {v : Vault}

/-- A refresh that could not resolve an account has written nothing. -/
theorem refreshLocalAccounts_failed (hReads : ReadsSucceed E)
    (hStored : loadedVault P m.disk = some v)
    (hAnswers : Answers P E outcome (loopTick P m) v.accounts) {e : DWORD}
    (hFailure : firstFailure outcome v.accounts = some e) :
    ∃ n, refreshLocalAccounts P E m = (.returned (.error e), n) ∧ n.disk = m.disk ∧
      n.registry = m.registry := by
  obtain ⟨k, hLoad, hUnseen, hTick⟩ := loadOrCreate_stored hReads hStored
  rw [← hTick] at hAnswers
  obtain ⟨n, hLoop, hQuiet, -⟩ := refreshAccounts_answers hAnswers
  rw [refreshed_of_failure hFailure] at hLoop
  refine ⟨n, ?_, hQuiet.disk.trans hUnseen.disk, hQuiet.registry.trans hUnseen.registry⟩
  unfold refreshLocalAccounts
  rw [bind_returned hLoad]
  dsimp only
  rw [bind_returned hLoop]
  rfl

/-- Otherwise it writes the pruned vault, or only its policy if there was nothing to
change. -/
theorem refreshLocalAccounts_answers (hReads : ReadsSucceed E)
    (hStored : loadedVault P m.disk = some v)
    (hAnswers : Answers P E outcome (loopTick P m) v.accounts)
    (hNone : firstFailure outcome v.accounts = none) :
    ∃ k, Unseen m k ∧ k.tick = loopTick P m + v.accounts.length ∧
      refreshLocalAccounts P E m =
        if pruned outcome v = v then synchronizeEnforcedRegistry E v k
        else save P E (pruned outcome v) k := by
  obtain ⟨k, hLoad, hUnseen, hTick⟩ := loadOrCreate_stored hReads hStored
  rw [← hTick] at hAnswers
  obtain ⟨n, hLoop, hQuiet, hCount⟩ := refreshAccounts_answers hAnswers
  rw [refreshed_of_none hNone] at hLoop
  refine ⟨n, ?_, ?_, ?_⟩
  · exact ⟨hQuiet.disk.trans hUnseen.disk, hQuiet.registry.trans hUnseen.registry,
      (Unseen.of_quiet hQuiet).failures.trans hUnseen.failures⟩
  · rw [hCount hNone, hTick]
  · unfold refreshLocalAccounts
    rw [bind_returned hLoad]
    dsimp only
    rw [bind_returned hLoop]
    dsimp only
    by_cases hSame : prunedAccounts outcome v.accounts = v.accounts
    · rw [if_neg (by simp [hSame]), if_pos (pruned_eq_self_iff.mpr hSame), hSame]
    · rw [if_pos (by simp [hSame]), if_neg (mt pruned_eq_self_iff.mp hSame)]
      rfl

/-- Publishing a policy that is already in force changes nothing, whatever becomes of it. -/
theorem synchronizeEnforcedRegistry_settled {k : Machine} (hPolicy : k.registry = publishedPolicy v) :
    Meets (synchronizeEnforcedRegistry E v) k fun _ n =>
      n.disk = k.disk ∧ n.registry = k.registry := by
  refine (meets_synchronizeEnforcedRegistry v k).mono ?_
  -- the first of the two values alone is also the one that is there
  have hPartial : partialPolicy k.registry v = k.registry := by
    rw [hPolicy]
    rfl
  rintro ((e | _) | what | _) n ⟨hDisk, -, -, hEnd⟩
  · exact ⟨hDisk, hEnd.elim id fun h => h.trans hPartial⟩
  · exact ⟨hDisk, hEnd.trans hPolicy.symm⟩
  · exact hEnd.elim
  · refine ⟨hDisk, ?_⟩
    rcases hEnd with hOld | hHalf | hNew
    · exact hOld
    · exact hHalf.trans hPartial
    · exact hNew.trans hPolicy.symm

/-! ## What is stored afterwards -/

/-- The pruned vault is the stored one, its policy is published, and a further refresh with
the same answers leaves files and policy as they are. -/
structure PrunedTo (P : Platform) (outcome : WString → Except DWORD WString) (v : Vault)
    (n : Machine) : Prop where
  stored : loadedVault P n.disk = some (pruned outcome v)
  policy : n.registry = publishedPolicy (pruned outcome v)
  settled : ∀ E' : Environment, ReadsSucceed E' →
    Answers P E' outcome (loopTick P n) (pruned outcome v).accounts →
    (refreshLocalAccounts P E' n).2.disk = n.disk ∧
      (refreshLocalAccounts P E' n).2.registry = n.registry

/-- What the answers have to be like for the pruned vault to survive the way through its
file: the new names are well-formed, and the file that is sealed at `tick` is not too long
to be read. -/
structure ComesBack (P : Platform) (outcome : WString → Except DWORD WString) (v : Vault)
    (tick : Nat) : Prop where
  names : ∀ a ∈ v.accounts, ∀ name, outcome a.sid = .ok name →
    wcsicmpEq a.username name = false → WellFormed P name
  size : ∀ plaintext, P.dump (vaultToJson P (pruned outcome v)) = .ok plaintext →
    (P.cryptProtectData tick plaintext).length ≤ maximumFileBytes

/-- What is stored under its policy is left alone by a refresh that finds nothing new. -/
theorem prunedTo_of_stored {n : Machine} (hStored : loadedVault P n.disk = some (pruned outcome v))
    (hPolicy : n.registry = publishedPolicy (pruned outcome v)) : PrunedTo P outcome v n := by
  refine ⟨hStored, hPolicy, fun E' hReads hAnswers => ?_⟩
  have hAgain : pruned outcome (pruned outcome v) = pruned outcome v :=
    pruned_eq_self_iff.mpr (prunedAccounts_prunedAccounts v.accounts)
  obtain ⟨k, hUnseen, -, hRun⟩ := refreshLocalAccounts_answers hReads hStored hAnswers
    (firstFailure_prunedAccounts v.accounts)
  rw [if_pos hAgain] at hRun
  obtain ⟨hDisk, hRegistry⟩ : (synchronizeEnforcedRegistry E' (pruned outcome v) k).2.disk = k.disk ∧
      (synchronizeEnforcedRegistry E' (pruned outcome v) k).2.registry = k.registry :=
    synchronizeEnforcedRegistry_settled (hUnseen.registry.trans hPolicy)
  rw [hRun]
  exact ⟨hDisk.trans hUnseen.disk, hRegistry.trans hUnseen.registry⟩

/-- The text of the pruned vault is the old text and the new names. -/
theorem wellFormedText_pruned_iff (outcome : WString → Except DWORD WString)
    (hText : WellFormedText P v) :
    WellFormedText P (pruned outcome v) ↔ ∀ a ∈ v.accounts, ∀ name, outcome a.sid = .ok name →
      wcsicmpEq a.username name = false → WellFormed P name := by
  constructor
  · intro h a ha name hOutcome hOther
    have hKept : keptAccount outcome a = some { a with username := name } := by
      rw [keptAccount_of_found hOutcome, hOther]
      rfl
    exact (h _ (List.mem_filterMap.mpr ⟨a, ha, hKept⟩)).2
  · intro h b hb
    obtain ⟨a, ha, hKept⟩ := List.mem_filterMap.mp hb
    cases hOutcome : outcome a.sid with
    | error e =>
        rw [keptAccount_of_error hOutcome] at hKept
        cases hKept
    | ok name =>
        rw [keptAccount_of_found hOutcome] at hKept
        cases hSame : wcsicmpEq a.username name with
        | true =>
            rw [if_pos hSame] at hKept
            rw [← Option.some.inj hKept]
            exact hText a ha
        | false =>
            rw [hSame] at hKept
            cases hKept
            exact ⟨(hText a ha).1, h a ha name hOutcome hSame⟩

/-- `RefreshLocalAccounts` on a stored vault.  A failed lookup ends it before anything was
written; otherwise what it stores is the pruned vault exactly where nothing had to be
changed or the pruned vault survives the way through its file. -/
theorem refreshLocalAccounts_prunes_iff (hT : P.Transcodes) (hProtects : P.Protects)
    (hParses : P.ParsesDumps) (hReads : ReadsSucceed E) (hStored : loadedVault P m.disk = some v)
    (hAnswers : Answers P E outcome (loopTick P m) v.accounts) :
    (∀ e, firstFailure outcome v.accounts = some e →
      ∃ n, refreshLocalAccounts P E m = (.returned (.error e), n) ∧ n.disk = m.disk ∧
        n.registry = m.registry) ∧
    (firstFailure outcome v.accounts = none →
      ∀ n, refreshLocalAccounts P E m = (.returned (.ok ()), n) →
        (PrunedTo P outcome v n ↔ pruned outcome v = v ∨
          ComesBack P outcome v (loopTick P m + v.accounts.length + 1))) := by
  refine ⟨fun e hFailure => refreshLocalAccounts_failed hReads hStored hAnswers hFailure, ?_⟩
  intro hNone n hRun
  obtain ⟨k, hUnseen, hTick, hWay⟩ := refreshLocalAccounts_answers hReads hStored hAnswers hNone
  rw [hRun] at hWay
  by_cases hSame : pruned outcome v = v
  · -- only the policy was written
    rw [if_pos hSame] at hWay
    refine iff_of_true ?_ (.inl hSame)
    obtain ⟨hDisk, -, -, hPolicy⟩ := (meets_synchronizeEnforcedRegistry v k).of_eq hWay.symm
    refine prunedTo_of_stored ?_ ?_
    · rw [hDisk, hUnseen.disk, hSame]
      exact hStored
    · rw [hSame]
      exact hPolicy
  · rw [if_neg hSame] at hWay
    obtain ⟨hPolicy, -⟩ := ((meets_save_saved (pruned outcome v) k).of_eq hWay.symm).saved rfl
    have hText := wellFormedText_pruned_iff outcome (wellFormedText_of_loadedVault hT hStored)
    have hBack := load_save_iff hT hProtects hParses hReads hWay.symm
    rw [load_returned_iff hReads] at hBack
    have hOther : ¬ loadedVault P k.disk = some (pruned outcome v) := by
      rw [hUnseen.disk, hStored]
      exact fun h => hSame (Option.some.inj h).symm
    constructor
    · intro h
      obtain ⟨hWell, hSize⟩ := hBack.mp h.stored
      refine .inr ⟨hText.mp hWell, ?_⟩
      rw [← hTick]
      exact hSize.resolve_right hOther
    · intro h
      obtain ⟨hNames, hSize⟩ := h.resolve_left hSame
      rw [← hTick] at hSize
      exact prunedTo_of_stored (hBack.mpr ⟨hText.mpr hNames, .inl hSize⟩) hPolicy

section Example

open Reference

/-- Where the accounts stand still, every lookup is answered the same. -/
theorem answers_of_still {A : List AccountRecord}
    (hStill : ∀ t, resolveLocalSid P (E.accounts t) = outcome) (t : Nat) :
    Answers P E outcome t A := by
  induction A generalizing t with
  | nil => trivial
  | cons a A ih => exact ⟨congrFun (hStill t) a.sid, ih (t + 1)⟩

/-- The computer after `alice` was given another name. -/
def renamed (name : WString) : Environment :=
  { calm with
    accounts _ :=
      { accountDatabase with
        lookupAccountSid sid :=
          if sid = aliceSid then
            .ok { domain := wtext "PC", isUser := true, sid := .ok aliceSid, name }
          else .error ERROR_NONE_MAPPED } }

/-- What its lookups answer. -/
def renamedOutcome (name : WString) : WString → Except DWORD WString :=
  resolveLocalSid (platform {}) ((renamed name).accounts 0)

theorem answers_renamed (name : WString) (t : Nat) (A : List AccountRecord) :
    Answers (platform {}) (renamed name) (renamedOutcome name) t A :=
  answers_of_still (fun _ => rfl) t

/-- An account that is gone, and after it that of `alice`; both were enforced. -/
def staleVault : Vault :=
  vault [{ alice true [credential (text "BBBB")] with
      sid := wtext "S-1-5-21-1-2-3-1002"
      username := wtext "bob" },
    alice true [credential (text "AAAA")]]

def staleMachine : Machine := machine (some staleVault) none

theorem loadedVault_staleMachine :
    loadedVault (platform {}) staleMachine.disk = some staleVault := by decide +kernel

/-- The refresh of this machine. -/
def refreshStale (name : WString) : Outcome Bytes (Except DWORD Unit) × Machine :=
  refreshLocalAccounts (platform {}) (renamed name) staleMachine

theorem refreshStale_eq (name : WString) (h : (refreshStale name).1 = .returned (.ok ())) :
    refreshLocalAccounts (platform {}) (renamed name) staleMachine =
      (.returned (.ok ()), (refreshStale name).2) := by
  change refreshStale name = _
  generalize refreshStale name = r at h
  exact Prod.ext h rfl

/-- One account is dropped, and the other one kept under its new name. -/
theorem refreshLocalAccounts_prunes_example :
    pruned (renamedOutcome (wtext "Alice Smith")) staleVault =
        vault [{ alice true [credential (text "AAAA")] with username := wtext "Alice Smith" }] ∧
      PrunedTo (platform {}) (renamedOutcome (wtext "Alice Smith")) staleVault
        (refreshStale (wtext "Alice Smith")).2 := by
  have hPruned : pruned (renamedOutcome (wtext "Alice Smith")) staleVault =
      vault [{ alice true [credential (text "AAAA")] with username := wtext "Alice Smith" }] := by
    decide +kernel
  have hRun := refreshStale_eq (wtext "Alice Smith") (by decide +kernel)
  have hPrunes := (refreshLocalAccounts_prunes_iff (transcodes {}) (protects {}) (parsesDumps {})
    (fun _ _ => rfl) loadedVault_staleMachine (answers_renamed _ _ _)).2
    (by decide +kernel) _ hRun
  refine ⟨hPruned, hPrunes.mpr (.inr ⟨?_, ?_⟩)⟩
  · -- the only name that is found is the new one of `alice`
    intro a ha name hOutcome _
    have hFound : ∀ b ∈ staleVault.accounts, renamedOutcome (wtext "Alice Smith") b.sid =
        .error ERROR_NONE_MAPPED ∨ renamedOutcome (wtext "Alice Smith") b.sid =
        .ok (wtext "Alice Smith") := by decide +kernel
    rcases hFound a ha with hGone | hIs
    · rw [hOutcome] at hGone
      cases hGone
    · obtain rfl := Except.ok.inj (hOutcome.symm.trans hIs)
      exact .inr ⟨_, rfl⟩
  · intro plaintext hDump
    rw [hPruned] at hDump
    obtain ⟨-, rfl⟩ := of_dump_eq_ok hDump
    have hShort : (vaultToJson (platform {}) (vault [{ alice true [credential (text "AAAA")] with
        username := wtext "Alice Smith" }])).render.length < 1000 := by decide +kernel
    generalize (vaultToJson (platform {}) (vault [{ alice true [credential (text "AAAA")] with
        username := wtext "Alice Smith" }])).render = rendered at hShort
    show (1 :: rendered).length ≤ maximumFileBytes
    rw [List.length_cons, maximumFileBytes]
    omega

/-- Half of a surrogate pair. -/
def unpaired : WString := [0xD800]

theorem refreshLocalAccounts_prunes_counterexample :
    ¬ ∀ (P : Platform) (E : Environment) (outcome : WString → Except DWORD WString) (v : Vault)
      (m n : Machine), P.Transcodes → P.Protects → P.ParsesDumps → ReadsSucceed E →
      loadedVault P m.disk = some v → Answers P E outcome (loopTick P m) v.accounts →
      firstFailure outcome v.accounts = none →
      refreshLocalAccounts P E m = (.returned (.ok ()), n) → PrunedTo P outcome v n := by
  intro h
  have hPrunes := h (platform {}) (renamed unpaired) (renamedOutcome unpaired) staleVault
    staleMachine _ (transcodes {}) (protects {}) (parsesDumps {}) (fun _ _ => rfl)
    loadedVault_staleMachine (answers_renamed _ _ _) (by decide +kernel)
    (refreshStale_eq unpaired (by decide +kernel))
  have hLost : loadedVault (platform {}) (refreshStale unpaired).2.disk =
      some (vault [{ alice true [credential (text "AAAA")] with username := [] }]) := by
    decide +kernel
  have hStored := hPrunes.stored
  rw [hLost] at hStored
  exact absurd hStored (by decide +kernel)

end Example

end LocalCredentialStore
end WindowsFidoLogon
