import WindowsFidoLogon.Store.RoundTrip

/-!
# What a change that fails leaves

A change of the vault that was not made leaves the vault it found, under the policy that
belongs to it.  The counters are an exception: an assertion that was accepted moves the
counter of its credential, whatever becomes of the request it came with.  `Spared` is
what holds between two machines when no other change was made.
-/

namespace WindowsFidoLogon
namespace LocalCredentialStore

open Program Environment Machine

variable {P : Platform} {E : Environment}

/-! ## Vaults with the same policy -/

/-- The policy only looks at the SIDs and the flags. -/
theorem publishedPolicy_congr {v w : Vault}
    (h : (w.accounts.map fun a => (a.enforced, a.sid)) = v.accounts.map fun a => (a.enforced, a.sid)) :
    publishedPolicy w = publishedPolicy v := by
  have hUnits : ∀ u : Vault, enforcedSidUnits u.accounts =
      ((u.accounts.map fun a => (a.enforced, a.sid)).filter (·.1)).flatMap fun a => a.2 ++ [0] := by
    intro u
    unfold enforcedSidUnits
    rw [List.filter_map, List.flatMap_map]
    rfl
  have hAny : ∀ u : Vault, hasEnforcedAccounts u =
      (u.accounts.map fun a => (a.enforced, a.sid)).any (·.1) := by
    intro u
    unfold hasEnforcedAccounts
    rw [List.any_map]
    rfl
  unfold publishedPolicy enforcedSidsValue enableFilterValue
  rw [hUnits, hUnits, hAny, hAny, h]

/-- A vault whose SIDs survive the way through its text publishes the same policy after
it. -/
theorem publishedPolicy_transcodedVault {v : Vault}
    (hText : ∀ a ∈ v.accounts, transcoded P a.sid = a.sid) :
    publishedPolicy (transcodedVault P v) = publishedPolicy v := by
  apply publishedPolicy_congr
  unfold transcodedVault
  rw [List.map_map]
  apply List.map_congr_left
  intro a ha
  exact congrArg (Prod.mk a.enforced) (hText a ha)

/-! ## Vaults whose counters moved on -/

/-- The same credential, with a counter that did not go back. -/
structure CountedOn (c c' : CredentialRecord) : Prop where
  rest : c' = { c with signCount := c'.signCount }
  counter : c.signCount ≤ c'.signCount

instance : Std.Refl CountedOn := ⟨fun _ => ⟨rfl, UInt32.le_refl _⟩⟩

instance : IsTrans CredentialRecord CountedOn := by
  constructor
  intro c c' c'' h h'
  refine ⟨?_, UInt32.le_trans h.counter h'.counter⟩
  rw [h'.rest, h.rest]

/-- Relations of lists compose item by item. -/
theorem forall₂_comp {α : Type} {r : α → α → Prop} [IsTrans α r] {l m n : List α}
    (h : List.Forall₂ r l m) (h' : List.Forall₂ r m n) : List.Forall₂ r l n := by
  induction h generalizing n with
  | nil => exact h'
  | cons hxy _ ih =>
      cases h' with
      | cons hyz hRest => exact .cons (Trans.trans hxy hyz) (ih hRest)

/-- The same account, with the same credentials in the same order but for counters that
moved on. -/
structure SameButCounters (a a' : AccountRecord) : Prop where
  rest : a' = { a with credentials := a'.credentials }
  credentials : List.Forall₂ CountedOn a.credentials a'.credentials

instance : Std.Refl SameButCounters := ⟨fun _ => ⟨rfl, List.forall₂_refl _⟩⟩

instance : IsTrans AccountRecord SameButCounters := by
  constructor
  intro a a' a'' h h'
  refine ⟨?_, forall₂_comp h.credentials h'.credentials⟩
  rw [h'.rest, h.rest]

/-- The same vault, with the same accounts in the same order but for counters that moved
on. -/
structure AdvancesOnly (v w : Vault) : Prop where
  rest : w = { v with accounts := w.accounts }
  accounts : List.Forall₂ SameButCounters v.accounts w.accounts

namespace AdvancesOnly

theorem refl (v : Vault) : AdvancesOnly v v :=
  ⟨rfl, List.forall₂_refl _⟩

theorem trans {v w u : Vault} (h : AdvancesOnly v w) (h' : AdvancesOnly w u) : AdvancesOnly v u := by
  refine ⟨?_, forall₂_comp h.accounts h'.accounts⟩
  rw [h'.rest, h.rest]

variable {v w : Vault}

/-- What does not depend on the credentials is the same for the accounts of both. -/
theorem map_accounts (h : AdvancesOnly v w) {β : Type} {f : AccountRecord → β}
    (hf : ∀ a cs, f { a with credentials := cs } = f a) :
    w.accounts.map f = v.accounts.map f := by
  have hAccounts := h.accounts
  generalize v.accounts = A at hAccounts ⊢
  generalize w.accounts = B at hAccounts ⊢
  induction hAccounts with
  | nil => rfl
  | cons hSame _ ih =>
      rw [List.map_cons, List.map_cons, ih, hSame.rest, hf]

/-- Both vaults publish the same policy. -/
theorem publishedPolicy (h : AdvancesOnly v w) :
    LocalCredentialStore.publishedPolicy w = LocalCredentialStore.publishedPolicy v :=
  publishedPolicy_congr (h.map_accounts fun _ _ => rfl)

/-- The text of the one vault is that of the other. -/
theorem wellFormedText (h : AdvancesOnly v w)
    (hText : ∀ a ∈ v.accounts, WellFormed P a.sid ∧ WellFormed P a.username) :
    ∀ a ∈ w.accounts, WellFormed P a.sid ∧ WellFormed P a.username := by
  intro a ha
  have hMem : (a.sid, a.username) ∈ w.accounts.map fun a => (a.sid, a.username) :=
    List.mem_map_of_mem ha
  rw [h.map_accounts fun _ _ => rfl] at hMem
  obtain ⟨b, hb, hSame⟩ := List.mem_map.mp hMem
  obtain ⟨hSid, hName⟩ := Prod.mk.inj hSame
  rw [← hSid, ← hName]
  exact hText b hb

end AdvancesOnly

/-! ## Machines between which nothing was seen to change -/

theorem failures_le {m n : Machine} (h : Later m n) : failures m ≤ failures n :=
  h.log_suffix.sublist.count_le _

/-- Files and policy are the same, and no compensating step failed in between. -/
structure Unseen (m n : Machine) : Prop where
  disk : n.disk = m.disk
  registry : n.registry = m.registry
  failures : failures n = failures m

theorem Unseen.of_quiet {m n : Machine} (h : Quiet m n) : Unseen m n :=
  ⟨h.disk, h.registry, congrArg (List.count _) h.log⟩

theorem failures_loaded (f : VaultFile) (v : Vault) (m : Machine) :
    failures (m.record (.loaded f v)) = failures m := by
  simp [failures]

/-- Where a vault is stored, every load returns it. -/
theorem loadOrCreate_of_stored (hReads : ReadsSucceed E) {m : Machine} {v : Vault}
    (hStored : loadedVault P m.disk = some v) :
    Meets (loadOrCreate P E) m fun o n => o = .returned (.ok v) ∧ Unseen m n := by
  unfold loadOrCreate load
  simp only [bind_assoc]
  rw [meets_bind]
  refine (meets_readValidVault_of_readsSucceed hReads .primary m).mono ?_
  rintro _ n ⟨hDisk, hRegistry, hFailures, r, rfl, hr⟩
  cases r with
  | ok w =>
      have hSame : w = v := by
        rw [loadedVault_of_primary hr.symm] at hStored
        exact Option.some.inj hStored
      subst hSame
      exact ⟨rfl, hDisk, hRegistry, (failures_loaded _ _ _).trans hFailures⟩
  | error e =>
      have hNone : vaultIn P m.disk .primary = none := hr.symm
      dsimp only
      simp only [bind_assoc]
      rw [meets_bind]
      refine (meets_readValidVault_of_readsSucceed hReads .backup n).mono ?_
      rintro _ k ⟨hDisk', hRegistry', hFailures', r', rfl, hr'⟩
      -- the primary file holds no vault, so the backup holds the stored one
      rw [loadedVault, hNone, Option.none_or, ← congrFun (congrArg (vaultIn P) hDisk) .backup,
        ← hr'] at hStored
      cases r' with
      | error e' => cases hStored
      | ok w =>
          obtain rfl : w = v := Option.some.inj hStored
          exact ⟨rfl, hDisk'.trans hDisk, hRegistry'.trans hRegistry,
            (failures_loaded _ _ _).trans (hFailures'.trans hFailures)⟩

/-! ## What is spared -/

/-- Unless a compensating step failed, a vault that was stored at `m` under its own policy
is stored so at `n`, but for counters that moved on. -/
structure Spared (P : Platform) (m n : Machine) : Prop where
  later : Later m n
  stored : ∀ v, loadedVault P m.disk = some v → m.registry = publishedPolicy v →
    failures n = failures m →
    ∃ w, loadedVault P n.disk = some w ∧ n.registry = publishedPolicy w ∧ AdvancesOnly v w

instance : Std.Refl (Spared P) :=
  ⟨fun m => ⟨Std.Refl.refl m, fun v hv hr _ => ⟨v, hv, hr, AdvancesOnly.refl v⟩⟩⟩

theorem Spared.trans {l m n : Machine} (h : Spared P l m) (h' : Spared P m n) : Spared P l n := by
  refine ⟨h.later.trans h'.later, fun v hv hr hFailures => ?_⟩
  -- failures are never taken back, so there were none in either half
  have hFirst := failures_le h.later
  have hSecond := failures_le h'.later
  obtain ⟨w, hw, hr', hAdvances⟩ := h.stored v hv hr (by omega)
  obtain ⟨u, hu, hr'', hAdvances'⟩ := h'.stored w hw hr' (by omega)
  exact ⟨u, hu, hr'', hAdvances.trans hAdvances'⟩

instance : IsTrans Machine (Spared P) := ⟨fun _ _ _ => Spared.trans⟩

theorem Spared.of_unseen {m n : Machine} (hLater : Later m n) (h : Unseen m n) : Spared P m n := by
  refine ⟨hLater, fun v hv hr _ => ⟨v, ?_, ?_, AdvancesOnly.refl v⟩⟩
  · rw [h.disk]
    exact hv
  · rw [h.registry]
    exact hr

theorem Spared.of_quiet {m n : Machine} (h : Quiet m n) : Spared P m n :=
  .of_unseen h.later (.of_quiet h)

/-- It is enough to look at the machines where a vault is stored under its own policy. -/
theorem Spared.of_stored {m n : Machine} (hLater : Later m n)
    (h : ∀ v, loadedVault P m.disk = some v → m.registry = publishedPolicy v → Spared P m n) :
    Spared P m n :=
  ⟨hLater, fun v hv hr => (h v hv hr).stored v hv hr⟩

theorem spares_load (hReads : ReadsSucceed E) {A : Except DWORD Vault → Prop} :
    Spares (Spared P) A (loadOrCreate P E) := by
  refine .of_moves fun m => .of_stored (moves_loadOrCreate m) fun v hv _ => ?_
  obtain ⟨_, hUnseen⟩ := loadOrCreate_of_stored hReads hv
  exact .of_unseen (moves_loadOrCreate m) hUnseen

/-- A save that fails leaves the stored vault and its policy. -/
theorem spares_save (hReads : ReadsSucceed E) (v' : Vault) :
    Spares (Spared P) (fun r => r ≠ .ok ()) (save P E v') := by
  intro m
  have hLater : Later m (save P E v' m).2 := steps_later.save v' m
  -- the three ways in which a save can end without its change
  have hEnd : ∀ v, loadedVault P m.disk = some v →
      Ended P v v' (replacement P v v' m.tick) m (save P E v' m).1 (save P E v' m).2 :=
    fun v hv => save_ends hReads hv
  unfold Meets
  generalize (save P E v' m).2 = n at hLater hEnd ⊢
  generalize (save P E v' m).1 = o at hEnd ⊢
  rcases o with (e | _) | what | _
  · intro _
    refine ⟨hLater, fun v hv hr hFailures => ?_⟩
    obtain ⟨w, hw, _, hCompensated⟩ := hEnd v hv
    obtain ⟨rfl, hPolicy⟩ := hCompensated hFailures
    refine ⟨w, hw, ?_, AdvancesOnly.refl w⟩
    rcases hPolicy with hOld | hNew
    · rw [hOld, hr]
    · exact hNew
  · exact fun hFailed => absurd rfl hFailed
  · refine ⟨hLater, fun v hv hr _ => ?_⟩
    obtain ⟨w, hw, rfl, hOld⟩ := hEnd v hv
    exact ⟨w, hw, hOld.trans hr, AdvancesOnly.refl w⟩
  · trivial

/-- If the primary file is one that `Save` sealed, it is short enough to be read. -/
def IntactReadable (P : Platform) (d : Disk) : Prop :=
  ∀ v tick content, SealedAs P v tick content → d .primary = some content →
    content.length ≤ maximumFileBytes

/-- A vault that was saved to a file that can be read is stored, as its text says, under
its policy. -/
theorem stored_of_save (hT : P.Transcodes) (hProtects : P.Protects) (hParses : P.ParsesDumps)
    (hReads : ReadsSucceed E) {v v' : Vault} {m n : Machine}
    (hStored : loadedVault P m.disk = some v)
    (hText : ∀ a ∈ v'.accounts, WellFormed P a.sid)
    (hSaved : save P E v' m = (.returned (.ok ()), n)) (hIntact : IntactReadable P n.disk) :
    isVaultValid P v' = true ∧ loadedVault P n.disk = some (transcodedVault P v') ∧
      n.registry = publishedPolicy (transcodedVault P v') := by
  obtain ⟨-, content, hSealed, hPrimary⟩ := ((meets_save_saved v' m).of_eq hSaved).saved rfl
  obtain ⟨w, hw, hNew, hPolicy⟩ := (save_ends hReads hStored).of_eq hSaved
  have hShort := hIntact v' _ content hSealed hPrimary
  obtain ⟨hValid, plaintext, hDump, hContent⟩ := hSealed
  have hReadsBack : ReadsBack P v' m.tick := by
    refine ⟨hText, fun plaintext' hDump' => ?_⟩
    obtain rfl : plaintext = plaintext' := Except.ok.inj (hDump.symm.trans hDump')
    rw [← hContent]
    exact hShort
  have hCases : (ReadsBack P v' m.tick ∧ replacement P v v' m.tick = transcodedVault P v') ∨
      (¬ ReadsBack P v' m.tick ∧ replacement P v v' m.tick = v) :=
    replacement_cases hT hProtects hParses ⟨hValid, plaintext, hDump⟩
  rcases hCases with ⟨_, hReplaced⟩ | ⟨hNot, _⟩
  · refine ⟨hValid, ?_, ?_⟩
    · rw [hw, hNew, hReplaced]
    · rw [hPolicy]
      refine (publishedPolicy_transcodedVault fun a ha => ?_).symm
      have hLength := ((isVaultValid_iff.mp hValid).accounts a ha).sid_length
      exact transcoded_of_wellFormed hT (by omega) (hText a ha)
  · exact absurd hReadsBack hNot

/-- A save of the stored vault with counters that moved on is harmless, whatever it
returns. -/
theorem spared_save_advanced (hT : P.Transcodes) (hProtects : P.Protects) (hParses : P.ParsesDumps)
    (hReads : ReadsSucceed E) {v v' : Vault} {m : Machine} (hStored : loadedVault P m.disk = some v)
    (hAdvances : AdvancesOnly v v') :
    Meets (save P E v') m fun o n => o ≠ .stopped → Spared P m n := by
  have hLater : Later m (save P E v' m).2 := steps_later.save v' m
  have hEnd : Ended P v v' (replacement P v v' m.tick) m (save P E v' m).1 (save P E v' m).2 :=
    save_ends hReads hStored
  have hFailed := spares_save (P := P) hReads v' m
  have hSaved := meets_save_saved (P := P) (E := E) v' m
  unfold Meets at hFailed hSaved ⊢
  generalize (save P E v' m).2 = n at hLater hEnd hFailed hSaved ⊢
  generalize (save P E v' m).1 = o at hEnd hFailed hSaved ⊢
  intro hCameBack
  rcases o with (e | _) | what | _
  · exact hFailed nofun
  · -- the new file is loaded, or if it cannot be the old one
    obtain ⟨-, content, ⟨hValid, plaintext, hDump, -⟩, -⟩ := hSaved.saved rfl
    obtain ⟨w, hw, hNew, hPolicy⟩ := hEnd
    refine ⟨hLater, fun v₀ hv₀ _ _ => ⟨w, hw, ?_⟩⟩
    obtain rfl : v = v₀ := Option.some.inj (hStored.symm.trans hv₀)
    have hText := hAdvances.wellFormedText (P := P) (wellFormedText_of_loadedVault hT hStored)
    have hCases : (ReadsBack P v' m.tick ∧ replacement P v v' m.tick = transcodedVault P v') ∨
        (¬ ReadsBack P v' m.tick ∧ replacement P v v' m.tick = v) :=
      replacement_cases hT hProtects hParses ⟨hValid, plaintext, hDump⟩
    rcases hCases with ⟨_, hReplaced⟩ | ⟨_, hReplaced⟩
    · rw [hNew, hReplaced, transcodedVault_of_wellFormed hT hValid hText]
      exact ⟨hPolicy, hAdvances⟩
    · rw [hNew, hReplaced]
      exact ⟨hPolicy.trans hAdvances.publishedPolicy, AdvancesOnly.refl v⟩
  · exact hFailed
  · exact absurd rfl hCameBack

end LocalCredentialStore
end WindowsFidoLogon
