import WindowsFidoLogon.Broker.Survival
import WindowsFidoLogon.Codec.Canonical

/-!
# What every stored vault satisfies

`IsVaultValid` compares identifiers inside one account only, and SIDs in another way than
the lookups do.  The rest is an invariant of the operations: no two accounts have SIDs that
`IsSameSid` takes for equal, and no identifier of a credential occurs twice in a vault, not
even under another base64url text.

An accepted assertion stores an account that an earlier load found, so the second part
needs that two loads in a row return the same accounts.  `steadyFiles` is the regime of all
tables in the files when intact files can be read.
-/

namespace WindowsFidoLogon
namespace BrokerService

open Program Text LocalAccount LocalCredentialStore Environment Handling

variable {P : Platform} {E : Environment}

/-! ## Identifiers in a table -/

/-- The identifiers of the credentials of an account. -/
def idsOf (account : AccountRecord) : List Bytes :=
  account.credentials.map CredentialRecord.credentialId

/-- No two accounts have the same SID, and no two credentials the same identifier. -/
structure WellKept (A : List AccountRecord) : Prop where
  sids : DistinctSids A
  ids : Keyed.InnerDistinct idsOf A

theorem wellKept_nil : WellKept [] :=
  ⟨List.nodup_nil, List.nodup_nil⟩

theorem idsOf_setSignCount (a : AccountRecord) (id : Bytes) (counter : UInt32) :
    idsOf { a with credentials := setSignCount id counter a.credentials } = idsOf a := by
  unfold idsOf
  rw [setSignCount_eq_modify]
  have hKeys : ∀ c : CredentialRecord, c.credentialId = id →
      ({ c with signCount := counter } : CredentialRecord).credentialId = id := fun _ hc => hc
  exact Keyed.map_key_modify hKeys a.credentials

theorem idsOf_eraseCredential (id : Bytes) (a : AccountRecord) :
    (idsOf (eraseCredential id a)).Sublist (idsOf a) := by
  unfold idsOf
  rw [eraseCredential_credentials]
  exact List.eraseP_sublist.map _

theorem idsOf_nodup {A : List AccountRecord} (h : Keyed.InnerDistinct idsOf A) {a : AccountRecord}
    (ha : a ∈ A) : (idsOf a).Nodup :=
  (List.nodup_flatMap.mp h).1 a ha

theorem Refreshed.ids {lo hi : Nat} {A A' : List AccountRecord} (h : Refreshed P E lo hi A A') :
    (A'.flatMap idsOf).Sublist (A.flatMap idsOf) := by
  induction h with
  | nil => exact List.Sublist.slnil
  | drop _ _ ih =>
      rw [List.flatMap_cons]
      exact ih.trans (List.sublist_append_right _ _)
  | keep name _ ih =>
      rw [List.flatMap_cons, List.flatMap_cons]
      exact List.Sublist.append (List.Sublist.refl _) ih

/-- A change in place that only takes identifiers away. -/
theorem ids_modifyAccount {sid : WString} {f : AccountRecord → AccountRecord}
    (hf : ∀ a, (idsOf (f a)).Sublist (idsOf a)) {A : List AccountRecord}
    (h : Keyed.InnerDistinct idsOf A) :
    Keyed.InnerDistinct idsOf (modifyAccount sid f A) := by
  rw [modifyAccount_eq_modify]
  refine h.modify (fun a ha => ?_) fun a _ i hi => .inl ((hf a).subset hi)
  exact (idsOf_nodup h (Keyed.mem_of_lookup ha)).sublist (hf a)

/-- Every change keeps the identifiers distinct, if an assertion is counted in the account
that is stored. -/
theorem Change.wellKept {H : Handling} {Done : Prop} {n : Machine}
    {Known : List AccountRecord → Prop} {Steady : Prop} {A A' : List AccountRecord}
    (h : Change P E H Done n Known Steady A A') (hSteady : Steady) (hKept : WellKept A) :
    WellKept A' := by
  refine ⟨h.distinct hKept.sids, ?_⟩
  have hIds := hKept.ids
  cases h with
  | @count B session account record value assertion front counter _ _ _ _ _ hSame hAccount _ _ =>
      -- the second load returns what the first did, so the account is one of the table
      obtain rfl := hSame hSteady
      have hMem : account ∈ B := mem_of_accountOf hAccount
      have hLookup : Keyed.lookup sidKey (sidKey account) B = some account :=
        Keyed.lookup_of_mem hKept.sids hMem
      rw [upsert_eq_put]
      refine hIds.put ?_ fun i hi => .inl ⟨account, hLookup, ?_⟩
      · rw [idsOf_setSignCount]
        exact idsOf_nodup hIds hMem
      · rwa [idsOf_setSignCount] at hi
  | @register session registration createdAt base _ _ hFresh hBase =>
      -- `isRegistered` has looked through all accounts
      have hNew : registration.credentialId ∉ A.flatMap idsOf := by
        intro hMem
        obtain ⟨a, ha, hIn⟩ := List.mem_flatMap.mp hMem
        obtain ⟨c, hc, hId⟩ := List.mem_map.mp hIn
        exact hFresh a ha c hc hId
      have hAdded : ∀ name, idsOf { base with
          username := name
          credentials := base.credentials ++ [newCredential session registration createdAt] } =
            idsOf base ++ [registration.credentialId] := fun name => List.map_append
      rw [upsert_eq_put]
      cases hAccount : LocalCredentialStore.accountOf session.targetSid A with
      | none =>
          rw [hAccount] at hBase
          obtain rfl : base = { sid := session.targetSid, username := session.username } := hBase
          -- a new account, with this credential only
          refine hIds.put ?_ fun i hi => .inr ?_
          · exact List.nodup_singleton _
          · obtain rfl : i = registration.credentialId := List.mem_singleton.mp hi
            exact hNew
      | some account =>
          rw [hAccount] at hBase
          obtain rfl : base = account := hBase
          have hMem : base ∈ A := mem_of_accountOf hAccount
          have hLookup : Keyed.lookup sidKey (sidKey base) A = some base :=
            Keyed.lookup_of_mem hKept.sids hMem
          -- an old one, with one credential more
          refine hIds.put ?_ fun i hi => ?_
          · rw [hAdded]
            refine List.nodup_append'.mpr ⟨idsOf_nodup hIds hMem, List.nodup_singleton _, ?_⟩
            intro i hi hLast
            rw [List.mem_singleton.mp hLast] at hi
            exact hNew (List.mem_flatMap.mpr ⟨base, hMem, hi⟩)
          · rw [hAdded] at hi
            rcases List.mem_append.mp hi with hOld | hLast
            · exact .inl ⟨base, hLookup, hOld⟩
            · rw [List.mem_singleton.mp hLast]
              exact .inr hNew
  | remove => exact ids_modifyAccount (idsOf_eraseCredential _) hIds
  | @enforce _ enabled =>
      have hSame : ∀ a : AccountRecord, (idsOf { a with enforced := enabled }).Sublist (idsOf a) :=
        fun a => List.Sublist.refl _
      exact ids_modifyAccount hSame hIds
  | refresh hRefreshed => exact hIds.sublist hRefreshed.ids

theorem wellKept_transcoded {A : List AccountRecord} (h : WellKept A)
    (hText : ∀ a ∈ A, transcoded P a.sid = a.sid) : WellKept (A.map (transcodedAccount P)) :=
  ⟨distinct_transcoded h.sids hText, h.ids.map fun _ _ => rfl⟩

/-- Two credentials of valid accounts with different identifiers have different values. -/
theorem decode_injective {c c' : CredentialRecord} (hc : ValidCredential c)
    (hSame : Convert.base64URLDecode c.credentialId = Convert.base64URLDecode c'.credentialId) :
    c.credentialId = c'.credentialId := by
  have hLeft := (Convert.base64URLDecode_iff hc.id_ne).mp rfl
  have hRight := (Convert.base64URLDecode_iff hc.id_ne).mp hSame.symm
  exact hLeft.trans hRight.symm

/-! ## Runs -/

section Contracts

variable (hT : P.Transcodes) (hProtects : P.Protects) (hParses : P.ParsesDumps)
include hT hProtects hParses

/-- The tables in the files and those loaded since `m₀`, when intact files can be read. -/
def steadyFiles (hTorn : TornRefused P E) (hReads : ReadsSucceed E) (m₀ : Machine) : Regime P E :=
  { anyFile hT hProtects hParses hTorn m₀ with
    Steady := True
    steady := by
      intro m k n v w hFirst hSecond _ _
      obtain ⟨hSame, hV⟩ := (storedAccounts_loadOrCreate hT hProtects hParses hReads m).of_eq hFirst
      obtain ⟨-, hW⟩ := (storedAccounts_loadOrCreate hT hProtects hParses hReads k).of_eq hSecond
      rw [← hV v rfl, ← hW w rfl, hSame] }

/-- A step keeps every table in the files well kept. -/
theorem wellKept_step (hTorn : TornRefused P E) (hReads : ReadsSucceed E) {m₀ : Machine} {b : Broker}
    {e : Event} (hLeaves : e.Leaves P WellKept)
    (hBefore : ∀ A, (steadyFiles hT hProtects hParses hTorn hReads m₀).Held b.machine A →
      WellKept A) :
    ∀ A, (steadyFiles hT hProtects hParses hTorn hReads m₀).Held (step P E b e).machine A →
      WellKept A := by
  refine (Regime.keeps_step (steadyFiles hT hProtects hParses hTorn hReads m₀) (J := False) trivial
    ?_ ?_ (fun _ => ?_) hBefore).resolve_right id
  · rintro content rfl A hA
    exact held_of_tampered hT hProtects hParses hTorn hLeaves hA
  · intro _ _ _ _ _ _ A v hA hChange
    exact .inr ⟨id, wellKept_transcoded (hChange.wellKept trivial hA)⟩
  · intro A v hA hChange
    exact .inr ⟨id, wellKept_transcoded (hChange.wellKept trivial hA)⟩

theorem wellKept_run (hTorn : TornRefused P E) (hReads : ReadsSucceed E) {b₀ : Broker}
    (hStart : ∀ file v, VaultFile.Kept file → vaultIn P b₀.machine.disk file = some v →
      WellKept v.accounts)
    {es : List Event} (hEvents : ∀ e ∈ es, e.Leaves P WellKept) :
    ∀ A, (steadyFiles hT hProtects hParses hTorn hReads b₀.machine).Held (run P E b₀ es).machine A →
      WellKept A := by
  induction es using List.reverseRecOn with
  | nil =>
      intro A hA
      rcases hA (Std.Refl.refl _) with rfl | ⟨w, rfl, ⟨file, hKept, hVault⟩ | ⟨file, hMem⟩⟩
      · exact wellKept_nil
      · exact hStart file w hKept hVault
      · rw [run, History.run_nil, entriesSince_self] at hMem
        cases hMem
  | append_singleton es e ih =>
      rw [run_concat]
      have hHere := ih fun e' he' => hEvents e' (List.mem_append_left _ he')
      exact wellKept_step hT hProtects hParses hTorn hReads (hEvents e (by simp)) hHere

end Contracts

/-- In every reachable state, whatever failed: a vault that a load can find in the primary
file or in the backup keeps what `IsVaultValid` promises, no two of its accounts have SIDs
that the lookups take for equal, and, when intact files can be read, no two of its
credentials, of one account or of two, decode to the same identifier. -/
theorem stored_vaults_wellKept (hT : P.Transcodes) (hProtects : P.Protects)
    (hParses : P.ParsesDumps) (hTorn : TornRefused P E) {b₀ : Broker}
    (hStart : ∀ file v, VaultFile.Kept file → vaultIn P b₀.machine.disk file = some v →
      WellKept v.accounts)
    {es : List Event} (hEvents : ∀ e ∈ es, e.Leaves P WellKept) :
    ∀ file v, VaultFile.Kept file → vaultIn P (run P E b₀ es).machine.disk file = some v →
      ValidVault P v ∧ DistinctSids v.accounts ∧
        (ReadsSucceed E → ((v.accounts.flatMap (·.credentials)).map fun c =>
          Convert.base64URLDecode c.credentialId).Nodup) := by
  intro file v hKept hVault
  obtain ⟨content, -, hOpen⟩ := vaultIn_eq_some.mp hVault
  have hValid : ValidVault P v := isVaultValid_iff.mp (isVaultValid_of_vaultOf hOpen)
  refine ⟨hValid, ?_, fun hReads => ?_⟩
  · refine distinct_held hT hProtects hParses hTorn (fun file v hKept hVault =>
      (hStart file v hKept hVault).sids) (fun e he => (hEvents e he).mono fun _ h => h.sids)
      v.accounts fun _ => .inr ⟨v, rfl, .inl ⟨file, hKept, hVault⟩⟩
  · have hIds := (wellKept_run hT hProtects hParses hTorn hReads hStart hEvents v.accounts
      fun _ => .inr ⟨v, rfl, .inl ⟨file, hKept, hVault⟩⟩).ids
    have hTexts : ((v.accounts.flatMap (·.credentials)).map CredentialRecord.credentialId).Nodup := by
      rw [List.map_flatMap]
      exact hIds
    -- the texts are distinct, and each is the only one of its value
    refine List.Nodup.map_on ?_ hTexts.of_map
    intro c hc c' hc' hSame
    obtain ⟨a, ha, hCredential⟩ := List.mem_flatMap.mp hc
    have hCanonical := decode_injective ((hValid.accounts a ha).credentials c hCredential) hSame
    exact List.inj_on_of_nodup_map hTexts hc hc' hCanonical

section Example

open Reference

theorem wellKept_twoKeys (file : VaultFile) (v : Vault) (hKept : VaultFile.Kept file)
    (hVault : vaultIn (platform {}) twoKeys.machine.disk file = some v) : WellKept v.accounts := by
  refine ⟨distinct_twoKeys file v hKept hVault, ?_⟩
  have hBoth : ((vaultIn (platform {}) twoKeys.machine.disk .primary).all fun v =>
      decide ((v.accounts.flatMap idsOf).Nodup)) = true ∧
        vaultIn (platform {}) twoKeys.machine.disk .backup = none := by
    decide +kernel
  rcases hKept with rfl | rfl
  · have hPrimary := hBoth.1
    rw [hVault] at hPrimary
    have hNodup : (v.accounts.flatMap idsOf).Nodup := of_decide_eq_true hPrimary
    exact hNodup
  · cases hVault.symm.trans hBoth.2

/-- After a removal there are two files, the backup from before it. -/
theorem stored_vaults_wellKept_example :
    ∃ v w, vaultIn (platform {}) (run (platform {}) calm twoKeys [removes firstId]).machine.disk
        .primary = some v ∧
      vaultIn (platform {}) (run (platform {}) calm twoKeys [removes firstId]).machine.disk
        .backup = some w ∧
      ((v.accounts.flatMap (·.credentials)).map fun c =>
        Convert.base64URLDecode c.credentialId).Nodup ∧
      ((w.accounts.flatMap (·.credentials)).map fun c =>
        Convert.base64URLDecode c.credentialId).Nodup := by
  have hFiles : (vaultIn (platform {}) (run (platform {}) calm twoKeys
        [removes firstId]).machine.disk .primary).isSome = true ∧
      (vaultIn (platform {}) (run (platform {}) calm twoKeys
        [removes firstId]).machine.disk .backup).isSome = true := by
    decide +kernel
  obtain ⟨v, hPrimary⟩ := Option.isSome_iff_exists.mp hFiles.1
  obtain ⟨w, hBackup⟩ := Option.isSome_iff_exists.mp hFiles.2
  have hEvents : ∀ e ∈ [removes firstId], e.Leaves (platform {}) WellKept := by
    intro e he
    refine Event.Internal.leaves fun content hTamper => ?_
    subst hTamper
    simp [removes] at he
  have hWrites : WritesSucceed calm := fun _ => rfl
  have hAll := stored_vaults_wellKept (transcodes {}) (protects {}) (parsesDumps {})
    (tornRefused_of_writesSucceed hWrites) wellKept_twoKeys hEvents
  have hReads : ReadsSucceed calm := fun _ _ => rfl
  exact ⟨v, w, hPrimary, hBackup, (hAll .primary v (.inl rfl) hPrimary).2.2 hReads,
    (hAll .backup w (.inr rfl) hBackup).2.2 hReads⟩

end Example

end BrokerService
end WindowsFidoLogon
