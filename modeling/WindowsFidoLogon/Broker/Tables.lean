import WindowsFidoLogon.Broker.Authorized
import WindowsFidoLogon.Store.Fallback

/-!
# Tables of accounts when loads may fall back

Two regimes for runs in which reads may fail.  In `anyFile` every table that is in one of
the files or was loaded counts, whatever fails; what every change keeps is true of all of
them.  In `fallback` writes succeed, and only the primary file counts, as long as every
load that fell back to the backup found a table with the property.
-/

namespace WindowsFidoLogon
namespace BrokerService

open Program Text LocalAccount LocalCredentialStore Environment Handling

variable {P : Platform} {E : Environment}

/-! ## Steps of a run -/

/-- What each request keeps of the tables that are held, unless there is a reason `J`, an
event keeps; what is tampered with has to be looked at by itself. -/
theorem Regime.keeps_step (R : Regime P E) {b : Broker} {e : Event} {Q : List AccountRecord → Prop}
    {J : Prop} (hGood : R.Good (step P E b e).machine)
    (hTampered : ∀ content, e = .tamper content →
      ∀ A, R.Held (step P E b e).machine A → R.Held b.machine A ∨ Q A)
    (hKeeps : ∀ pipe input caller request, e = .request pipe input →
      openRequest P pipe input = .ok (caller, request) →
      R.Keeps ⟨b, caller, request⟩ (R.Replied (handle P E caller request b).1)
        (step P E b e).machine Q J)
    (hStarts : e = .restart → R.Keeps (Handling.startUp b) False (step P E b e).machine Q J)
    (hBefore : ∀ A, R.Held b.machine A → Q A) :
    (∀ A, R.Held (step P E b e).machine A → Q A) ∨ J := by
  cases e with
  | restart =>
      have hMoved : R.Moved (Handling.startUp b) False b.machine
          (refreshLocalAccounts P E b.machine).2 :=
        Regime.moved_refreshLocalAccounts (le_refl _)
      exact hMoved.keeps (Std.Refl.refl _) hGood (hStarts rfl) hBefore
  | tamper content => exact .inl fun A hA => (hTampered content rfl A hA).elim (hBefore A) id
  | request pipe input =>
      cases hOpen : openRequest P pipe input with
      | error what =>
          left
          have hSame : (step P E b (.request pipe input)).machine = b.machine := (serve_refused hOpen).1
          rw [hSame]
          exact hBefore
      | ok opened =>
          obtain ⟨caller, request⟩ := opened
          have hConducted : Conducted P E ⟨b, caller, request⟩ _ _ :=
            handle_conducts (P := P) (E := E) ⟨b, caller, request⟩
          have hHere := hKeeps pipe input caller request rfl hOpen
          rw [step_machine hOpen] at hGood hHere ⊢
          exact R.keeps hConducted hGood hHere hBefore

theorem step_later (b : Broker) (e : Event) : Later b.machine (step P E b e).machine := by
  cases e with
  | restart => exact transacts_later.refreshLocalAccounts b.machine
  | tamper content => exact Later.setFile .primary content b.machine
  | request pipe input => exact serve_machine_later pipe input b

theorem run_later (b : Broker) (es : List Event) : Later b.machine (run P E b es).machine := by
  induction es using List.reverseRecOn with
  | nil => exact Std.Refl.refl _
  | append_singleton es e ih =>
      rw [run_concat]
      exact ih.trans (step_later _ e)

theorem run_later_append (b : Broker) (es fs : List Event) :
    Later (run P E b es).machine (run P E b (es ++ fs)).machine := by
  show Later _ (History.run (step P E) b (es ++ fs)).machine
  rw [History.run_append]
  exact run_later _ fs

/-- What the calls of the store do, an event from inside does. -/
theorem step_transacts {R : Machine → Machine → Prop} (h : Transacts P E R) {b : Broker} {e : Event}
    (hInternal : e.Internal) : R b.machine (step P E b e).machine := by
  cases e with
  | restart => exact h.refreshLocalAccounts b.machine
  | tamper content => exact absurd rfl (hInternal content)
  | request pipe input =>
      cases hOpen : openRequest P pipe input with
      | error what =>
          have hSame : (step P E b (.request pipe input)).machine = b.machine := (serve_refused hOpen).1
          rw [hSame]
          exact h.refl b.machine
      | ok opened =>
          obtain ⟨caller, request⟩ := opened
          have hConducted : Conducted P E ⟨b, caller, request⟩ _ _ :=
            handle_conducts (P := P) (E := E) ⟨b, caller, request⟩
          rw [step_machine hOpen]
          exact hConducted.transacts h

theorem run_transacts {R : Machine → Machine → Prop} (h : Transacts P E R) {b : Broker}
    {es : List Event} (hInternal : ∀ e ∈ es, e.Internal) :
    R b.machine (run P E b es).machine := by
  induction es using List.reverseRecOn with
  | nil => exact h.refl b.machine
  | append_singleton es e ih =>
      rw [run_concat]
      exact h.trans (ih fun e' he' => hInternal e' (List.mem_append_left _ he'))
        (step_transacts h (hInternal e (by simp)))

/-- What the event leaves in the file that it touches from outside is no vault, or one
whose accounts satisfy `Q`. -/
def Event.Leaves (P : Platform) (Q : List AccountRecord → Prop) (e : Event) : Prop :=
  ∀ content v, e = .tamper (some content) → vaultOf P content = .ok v → Q v.accounts

theorem Event.Internal.leaves {e : Event} (h : e.Internal) {Q : List AccountRecord → Prop} :
    e.Leaves P Q :=
  fun _ _ he => absurd he (h _)

theorem Event.Leaves.mono {e : Event} {Q Q' : List AccountRecord → Prop} (h : e.Leaves P Q)
    (hQ : ∀ A, Q A → Q' A) : e.Leaves P Q' :=
  fun content v he hOpen => hQ _ (h content v he hOpen)

/-- What is found in a file afterwards was there before, or was left there. -/
theorem Event.Leaves.vaultIn {b : Broker} {content : Option Bytes} {Q : List AccountRecord → Prop}
    {file : VaultFile} {v : Vault} (h : Event.Leaves P Q (.tamper content))
    (hVault : LocalCredentialStore.vaultIn P (step P E b (.tamper content)).machine.disk file =
      some v) :
    LocalCredentialStore.vaultIn P b.machine.disk file = some v ∨ Q v.accounts := by
  obtain ⟨c, hContent, hOpen⟩ := vaultIn_eq_some.mp hVault
  have hDisk : Function.update b.machine.disk .primary content file = some c := hContent
  by_cases hFile : file = .primary
  · rw [hFile, Function.update_self] at hDisk
    exact .inr (h c v (by rw [hDisk]) hOpen)
  · rw [Function.update_of_ne hFile] at hDisk
    exact .inl (vaultIn_eq_some.mpr ⟨c, hDisk, hOpen⟩)

/-- Changes keep distinct SIDs. -/
theorem keeps_distinct {R : Regime P E} (hSpoils : ∀ v, ¬ R.Spoils v) {H : Handling} {Done : Prop}
    {n : Machine} : R.Keeps H Done n DistinctSids False :=
  fun _ v hA hChange =>
    .inr ⟨hSpoils v, fun hText => distinct_transcoded (hChange.distinct hA) hText⟩

/-! ## All tables -/

/-- The vault is in one of the files, or was loaded since `m₀`. -/
def InReach (P : Platform) (m₀ m : Machine) (v : Vault) : Prop :=
  (∃ file, VaultFile.Kept file ∧ vaultIn P m.disk file = some v) ∨
    ∃ file, .loaded file v ∈ entriesSince m₀ m

/-- Files that were not finished are refused. -/
def TornRefused (P : Platform) (E : Environment) : Prop :=
  ∀ content v, Torn E (some content) → vaultOf P content ≠ .ok v

theorem tornRefused_of_writesSucceed (hWrites : WritesSucceed E) : TornRefused P E :=
  fun _ _ hTorn => absurd hTorn (not_torn_of_writesSucceed hWrites _)

theorem InReach.congr {m₀ m n : Machine} {v : Vault} (h : InReach P m₀ n v)
    (hDisk : n.disk = m.disk) (hLog : n.log = m.log) : InReach P m₀ m v := by
  rcases h with ⟨file, hKept, hVault⟩ | ⟨file, hMem⟩
  · exact .inl ⟨file, hKept, hDisk ▸ hVault⟩
  · rw [entriesSince_of_log_eq hLog] at hMem
    exact .inr ⟨file, hMem⟩

/-- A load only reaches what was in reach. -/
theorem InReach.of_load {m₀ m n : Machine} {v : Vault} {entries : List LogEntry}
    (h : InReach P m₀ n v) (hSuffix : m₀.log <:+ m.log) (hDisk : n.disk = m.disk)
    (hLog : n.log = entries ++ m.log)
    (hEntries : ∀ file, .loaded file v ∈ entries →
      ∃ file', VaultFile.Kept file' ∧ vaultIn P m.disk file' = some v) : InReach P m₀ m v := by
  rcases h with ⟨file, hKept, hVault⟩ | ⟨file, hMem⟩
  · exact .inl ⟨file, hKept, hDisk ▸ hVault⟩
  · rw [entriesSince_append_of_suffix hSuffix hLog, List.mem_append] at hMem
    rcases hMem with hNew | hOld
    · exact .inl (hEntries file hNew)
    · exact .inr ⟨file, hOld⟩

/-- A regime that is never steady says nothing about two loads in a row. -/
theorem accounts_eq_of_false {m k n : Machine} {v w : Vault}
    (_ : loadOrCreate P E m = (.returned (.ok v), k))
    (_ : loadOrCreate P E k = (.returned (.ok w), n)) (_ : True) (hFalse : False) :
    v.accounts = w.accounts :=
  hFalse.elim

section Contracts

variable (hT : P.Transcodes) (hProtects : P.Protects) (hParses : P.ParsesDumps)
include hT hProtects hParses

/-- A save brings nothing in reach but what was in reach, and what it saved. -/
theorem inReach_of_save (hTorn : TornRefused P E) {m₀ : Machine} (v : Vault) (m : Machine)
    (hSuffix : m₀.log <:+ m.log) :
    Meets (save P E v) m fun _ n => ∀ w, InReach P m₀ n w → InReach P m₀ m w ∨
      w.accounts = v.accounts.map (transcodedAccount P) ∧
        ∀ a ∈ v.accounts, transcoded P a.sid = a.sid := by
  have hLog : Meets (save P E v) m fun _ n => OnlyFailures m n := steps_onlyFailures.save v m
  refine ((meets_save_saved v m).and hLog).mono ?_
  rintro o n ⟨hSaved, hFailures⟩ w (⟨file, hKept, hVault⟩ | ⟨file, hMem⟩)
  · have hIn : ∀ file', VaultFile.Kept file' → n.disk file = m.disk file' → InReach P m₀ m w := by
      intro file' hKept' hSame
      refine .inl ⟨file', hKept', ?_⟩
      rw [← hVault]
      unfold vaultIn
      rw [hSame]
    rcases hKept with rfl | rfl
    · rcases hSaved.primary with hOld | ⟨content, hSealed, hNew⟩ | ⟨-, -, hBack⟩
      · exact .inl (hIn .primary (.inl rfl) hOld)
      · obtain ⟨content', hContent, hOpen⟩ := vaultIn_eq_some.mp hVault
        obtain rfl := Option.some.inj (hContent.symm.trans hNew)
        exact .inr (accounts_of_sealedAs hT hProtects hParses hSealed hOpen)
      · exact .inl (hIn .backup (.inr rfl) hBack)
    · -- the backup is as it was, a copy of the primary, or torn
      rcases hSaved.backup with hOld | hCopy | hWreck
      · exact .inl (hIn .backup (.inr rfl) hOld)
      · exact .inl (hIn .primary (.inl rfl) hCopy)
      · obtain ⟨content, hContent, hOpen⟩ := vaultIn_eq_some.mp hVault
        rw [hContent] at hWreck
        exact absurd hOpen (hTorn content w hWreck)
  · exact .inl (.inr ⟨file, (hFailures.mem_iff hSuffix LogEntry.noConfusion).mp hMem⟩)

/-- A load brings nothing in reach but an empty table. -/
theorem inReach_of_loadEnd (hTorn : TornRefused P E) {m₀ m n : Machine}
    {o : Outcome Bytes (Except DWORD Vault)} (h : LoadEnd P E m o n)
    (hSuffix : m₀.log <:+ m.log) :
    (∀ w, InReach P m₀ n w → InReach P m₀ m w ∨ w.accounts = []) ∧
      ∀ v, o = .returned (.ok v) → InReach P m₀ m v ∨ v.accounts = [] := by
  cases h with
  | @found file v n hKept hVault hDisk _ hLog =>
      have hEntries : n.log = [.loaded file v] ++ m.log := hLog
      refine ⟨fun w hw => .inl (hw.of_load hSuffix hDisk hEntries ?_), ?_⟩
      · intro file' hMem
        cases List.mem_singleton.mp hMem
        exact ⟨file, hKept, hVault⟩
      · rintro _ ⟨⟩
        exact .inl (.inl ⟨file, hKept, hVault⟩)
  | failed hDisk _ hLog =>
      have hEntries : n.log = [.loadFailed] ++ m.log := hLog
      refine ⟨fun w hw => .inl (hw.of_load hSuffix hDisk hEntries ?_), nofun⟩
      intro file' hMem
      cases List.mem_singleton.mp hMem
  | @created _ r v k n hSave hNone hDisk hLog hReturned =>
      have hEntries : k.log = [.created, .loadFailed] ++ m.log := hLog
      have hBefore : m₀.log <:+ k.log := by
        rw [hEntries]
        exact hSuffix.trans (List.suffix_append _ _)
      -- the new vault is saved, and it has no accounts
      have hSaved := (inReach_of_save hT hProtects hParses hTorn v k hBefore).of_eq hSave
      refine ⟨fun w hw => ?_, fun w hw => .inr ?_⟩
      · rcases hSaved w hw with hOld | ⟨hNew, -⟩
        · refine .inl (hOld.of_load hSuffix hDisk hEntries ?_)
          intro file' hMem
          simp at hMem
        · right
          rw [hNew, hNone]
          rfl
      · rw [hReturned w hw]
        exact hNone

/-- Whatever fails: a load returns a table that is in reach since `m₀`, or an empty one. -/
def anyFile (hTorn : TornRefused P E) (m₀ : Machine) : Regime P E where
  Held m A := Later m₀ m → A = [] ∨ ∃ v, A = v.accounts ∧ InReach P m₀ m v
  Good _ := True
  Steady := False
  Unsure := True
  Spoils _ := False
  good_of_later _ h := h
  held_quiet h A hA hSince := by
    refine (hA (hSince.trans h.later)).imp_right ?_
    rintro ⟨v, rfl, hv⟩
    exact ⟨v, rfl, hv.congr h.disk h.log⟩
  held_synchronize v m := by
    have hLog : Meets (synchronizeEnforcedRegistry E v) m fun _ n => OnlyFailures m n ∧ Later m n :=
      ⟨steps_onlyFailures.synchronizeEnforcedRegistry v m,
        steps_later.synchronizeEnforcedRegistry v m⟩
    refine ((meets_synchronizeEnforcedRegistry v m).and hLog).mono ?_
    rintro o n ⟨⟨hDisk, -⟩, hOnly, hAfter⟩ A hA hSince
    refine (hA (hSince.trans hAfter)).imp_right ?_
    rintro ⟨w, rfl, ⟨file, hKept, hVault⟩ | ⟨file, hMem⟩⟩
    · exact ⟨w, rfl, .inl ⟨file, hKept, hDisk ▸ hVault⟩⟩
    · have hOld := (hOnly.mem_iff hSince.log_suffix LogEntry.noConfusion).mp hMem
      exact ⟨w, rfl, .inr ⟨file, hOld⟩⟩
  held_load m := by
    have hAfter : Meets (loadOrCreate P E) m fun _ n => Later m n := moves_loadOrCreate m
    refine ((meets_loadOrCreate m).and hAfter).mono ?_
    rintro o n ⟨hEnd, hLater⟩ -
    refine ⟨fun A hA hSince => ?_, fun v hv hSince => ?_⟩
    · have hReach := (inReach_of_loadEnd hT hProtects hParses hTorn hEnd hSince.log_suffix).1
      rcases hA (hSince.trans hLater) with hNone | ⟨w, rfl, hw⟩
      · exact .inl hNone
      · exact (hReach w hw).symm.imp_right fun hOld => ⟨w, rfl, hOld⟩
    · have hReach := (inReach_of_loadEnd hT hProtects hParses hTorn hEnd hSince.log_suffix).2
      exact (hReach v hv).symm.imp_right fun hOld => ⟨v, rfl, hOld⟩
  held_save v m := by
    by_cases hSince : Later m₀ m
    · have hAfter : Meets (save P E v) m fun _ n => Later m n := steps_later.save v m
      refine ((inReach_of_save hT hProtects hParses hTorn v m hSince.log_suffix).and hAfter).mono ?_
      rintro o n ⟨hReach, hLater⟩ - A hA
      rcases hA (hSince.trans hLater) with hNone | ⟨w, rfl, hw⟩
      · exact .inl fun _ => .inl hNone
      · rcases hReach w hw with hOld | hNew
        · exact .inl fun _ => .inr ⟨w, rfl, hOld⟩
        · exact .inr ⟨.inl trivial, .inr hNew⟩
    · exact fun _ A _ => .inl fun h => absurd h hSince
  steady := @accounts_eq_of_false P E

/-- What is put into the primary file from outside is the only table that an outside change
brings in reach. -/
theorem held_of_tampered (hTorn : TornRefused P E) {m₀ : Machine} {b : Broker}
    {content : Option Bytes} {Q : List AccountRecord → Prop}
    (hLeaves : (Event.tamper content).Leaves P Q) {A : List AccountRecord}
    (hA : (anyFile hT hProtects hParses hTorn m₀).Held (step P E b (.tamper content)).machine A) :
    (anyFile hT hProtects hParses hTorn m₀).Held b.machine A ∨ Q A := by
  by_cases hSince : Later m₀ b.machine
  · rcases hA (hSince.trans (step_later b _)) with hNone | ⟨w, rfl, hReach | hMem⟩
    · exact .inl fun _ => .inl hNone
    · obtain ⟨file, hKept, hVault⟩ := hReach
      refine (hLeaves.vaultIn hVault).imp_left fun hOld _ => ?_
      exact .inr ⟨w, rfl, .inl ⟨file, hKept, hOld⟩⟩
    · exact .inl fun _ => .inr ⟨w, rfl, .inr hMem⟩
  · exact .inl fun h => absurd h hSince

/-- Distinct SIDs remain distinct in all tables, whatever fails. -/
theorem distinct_held (hTorn : TornRefused P E) {b₀ : Broker}
    (hDistinct : ∀ file v, VaultFile.Kept file → vaultIn P b₀.machine.disk file = some v →
      DistinctSids v.accounts)
    {es : List Event} (hEvents : ∀ e ∈ es, e.Leaves P DistinctSids) :
    ∀ A, (anyFile hT hProtects hParses hTorn b₀.machine).Held (run P E b₀ es).machine A →
      DistinctSids A := by
  let R := anyFile hT hProtects hParses hTorn b₀.machine
  have hStart : ∀ A, R.Held b₀.machine A → DistinctSids A := by
    intro A hA
    rcases hA (Std.Refl.refl _) with rfl | ⟨w, rfl, ⟨file, hKept, hVault⟩ | ⟨file, hMem⟩⟩
    · exact List.nodup_nil
    · exact hDistinct file w hKept hVault
    · rw [entriesSince_self] at hMem
      cases hMem
  have hStep : ∀ b e, (∀ A, R.Held b.machine A → DistinctSids A) → e.Leaves P DistinctSids →
      ∀ A, R.Held (step P E b e).machine A → DistinctSids A := by
    intro b e hBefore hLeaves
    -- nothing is a reason to give up distinct SIDs
    refine (R.keeps_step (J := False) trivial ?_ ?_ (fun _ => ?_) hBefore).resolve_right id
    · rintro content rfl A hA
      exact held_of_tampered hT hProtects hParses hTorn hLeaves hA
    · exact fun _ _ _ _ _ _ => keeps_distinct fun _ h => h
    · exact keeps_distinct fun _ h => h
  exact History.run_keeps hStep hStart (History.along_of_forall hEvents)

end Contracts

/-! ## Tables that loads fall back to -/

/-- What the loads since `m₀` that did not find the primary vault came to: those from the
backup returned tables with `Q`, and where a new vault was made, the empty table has it. -/
structure FellBack (Q : List AccountRecord → Prop) (m₀ m : Machine) : Prop where
  backup : ∀ v, .loaded .backup v ∈ entriesSince m₀ m → Q v.accounts
  created : .created ∈ entriesSince m₀ m → Q []

theorem FellBack.of_later {Q : List AccountRecord → Prop} {m₀ m n : Machine} (h : FellBack Q m₀ n)
    (hSuffix : m₀.log <:+ m.log) (hLater : Later m n) : FellBack Q m₀ m where
  backup v hMem := h.backup v (mem_entriesSince_of_later hSuffix hLater hMem)
  created hMem := h.created (mem_entriesSince_of_later hSuffix hLater hMem)

/-- The vault is in the primary file, or was loaded since `m₀`. -/
def WorkedOn (P : Platform) (m₀ m : Machine) (v : Vault) : Prop :=
  vaultIn P m.disk .primary = some v ∨ ∃ file, .loaded file v ∈ entriesSince m₀ m

section Contracts

variable (hT : P.Transcodes) (hProtects : P.Protects) (hParses : P.ParsesDumps)
include hT hProtects hParses

/-- A save only adds what it saved to the tables that are worked on, and only if it
returned true, when writes succeed; when one fails, it may also bring back the backup,
but only if nothing that it saved is enforced. -/
theorem workedOn_of_save {m₀ : Machine} (v : Vault) (m : Machine) (hSuffix : m₀.log <:+ m.log) :
    Meets (save P E v) m fun o n => ∀ w, WorkedOn P m₀ n w → WorkedOn P m₀ m w ∨
      ¬ WritesSucceed E ∧ hasEnforcedAccounts v = false ∨
      (¬ WritesSucceed E ∨ o = .returned (.ok ())) ∧
        w.accounts = v.accounts.map (transcodedAccount P) ∧
          ∀ a ∈ v.accounts, transcoded P a.sid = a.sid := by
  have hLog : Meets (save P E v) m fun _ n => OnlyFailures m n := steps_onlyFailures.save v m
  have hOk : Meets (save P E v) m fun o n => WritesSucceed E →
      n.disk .primary = m.disk .primary ∨ o = .returned (.ok ()) := by
    by_cases hWrites : WritesSucceed E
    · exact (primary_of_save hWrites v m).mono fun _ _ h _ => h.imp_right And.left
    · exact fun h => absurd h hWrites
  refine (((meets_save_saved v m).and hOk).and hLog).mono ?_
  rintro o n ⟨⟨hSaved, hReturned⟩, hFailures⟩ w (hVault | ⟨file, hMem⟩)
  · have hSame : n.disk .primary = m.disk .primary → WorkedOn P m₀ m w := by
      intro hOld
      refine .inl ?_
      rw [← hVault]
      exact vaultIn_congr hOld.symm
    rcases hSaved.primary with hOld | ⟨content, hSealed, hNew⟩ | ⟨hNone, hFails, -⟩
    · exact .inl (hSame hOld)
    · obtain ⟨content', hContent, hOpen⟩ := vaultIn_eq_some.mp hVault
      obtain rfl := Option.some.inj (hContent.symm.trans hNew)
      have hStored := accounts_of_sealedAs hT hProtects hParses hSealed hOpen
      -- if no write fails, a new primary file means that the save returned true
      by_cases hWrites : WritesSucceed E
      · rcases hReturned hWrites with hOld | hOk
        · exact .inl (hSame hOld)
        · exact .inr (.inr ⟨.inr hOk, hStored⟩)
      · exact .inr (.inr ⟨.inl hWrites, hStored⟩)
    · exact .inr (.inl ⟨hFails, hNone⟩)
  · exact .inl (.inr ⟨file, (hFailures.mem_iff hSuffix LogEntry.noConfusion).mp hMem⟩)

/-- A load only adds what it fell back to. -/
theorem workedOn_of_loadEnd {Q : List AccountRecord → Prop} (hEmpty : WritesSucceed E ∨ ¬ Q [])
    {m₀ m n : Machine} {o : Outcome Bytes (Except DWORD Vault)} (h : LoadEnd P E m o n)
    (hSuffix : m₀.log <:+ m.log) (hBack : FellBack Q m₀ n) :
    (∀ w, WorkedOn P m₀ n w → Q w.accounts ∨ WorkedOn P m₀ m w) ∧
      ∀ v, o = .returned (.ok v) → Q v.accounts ∨ WorkedOn P m₀ m v := by
  cases h with
  | @found file v n hKept hVault hDisk _ hLog =>
      have hEntries : n.log = [.loaded file v] ++ m.log := hLog
      -- the primary file was worked on already; the backup is what the load fell back to
      have hHere : Q v.accounts ∨ WorkedOn P m₀ m v := by
        rcases hKept with rfl | rfl
        · exact .inr (.inl hVault)
        · refine .inl (hBack.backup v ?_)
          rw [entriesSince_append_of_suffix hSuffix hEntries]
          exact List.mem_cons_self
      refine ⟨?_, ?_⟩
      · rintro w (hPrimary | ⟨file', hMem⟩)
        · exact .inr (.inl (hDisk ▸ hPrimary))
        · rw [entriesSince_append_of_suffix hSuffix hEntries, List.singleton_append,
            List.mem_cons] at hMem
          rcases hMem with hNew | hOld
          · cases hNew
            exact hHere
          · exact .inr (.inr ⟨file', hOld⟩)
      · rintro _ ⟨⟩
        exact hHere
  | failed hDisk _ hLog =>
      have hEntries : n.log = [.loadFailed] ++ m.log := hLog
      refine ⟨?_, nofun⟩
      rintro w (hPrimary | ⟨file, hMem⟩)
      · exact .inr (.inl (hDisk ▸ hPrimary))
      · rw [entriesSince_append_of_suffix hSuffix hEntries, List.singleton_append,
          List.mem_cons] at hMem
        exact .inr (.inr ⟨file, hMem.resolve_left nofun⟩)
  | @created _ r v k n hSave hNone hDisk hLog hReturned =>
      have hEntries : k.log = [.created, .loadFailed] ++ m.log := hLog
      have hBefore : m₀.log <:+ k.log := by
        rw [hEntries]
        exact hSuffix.trans (List.suffix_append _ _)
      have hSaved := (workedOn_of_save hT hProtects hParses v k hBefore).of_eq hSave
      have hOnly : OnlyFailures k n := by
        have hMoves : Meets (save P E v) k fun _ n => OnlyFailures k n := steps_onlyFailures.save v k
        exact hMoves.of_eq hSave
      -- this load made a new vault, so the empty table has `Q`, and no write fails
      have hHere : Q [] := by
        refine hBack.created ((hOnly.mem_iff hBefore LogEntry.noConfusion).mpr ?_)
        rw [entriesSince_append_of_suffix hSuffix hEntries]
        exact List.mem_cons_self
      have hWrites : WritesSucceed E := hEmpty.resolve_right fun h => h hHere
      refine ⟨fun w hw => ?_, fun w hw => .inl ?_⟩
      · rcases hSaved w hw with (hPrimary | ⟨file, hMem⟩) | ⟨hFails, -⟩ | ⟨-, hNew, -⟩
        · exact .inr (.inl (hDisk ▸ hPrimary))
        · rw [entriesSince_append_of_suffix hSuffix hEntries] at hMem
          simp only [List.cons_append, List.nil_append, List.mem_cons, reduceCtorEq,
            false_or] at hMem
          exact .inr (.inr ⟨file, hMem⟩)
        · exact absurd hWrites hFails
        · left
          rw [hNew, hNone]
          exact hHere
      · rw [hReturned w hw, hNone]
        exact hHere

/-- When loads since `m₀` that fall back find tables with `Q`: a load returns one of these,
or a table that was worked on.  Unless writes succeed, `Q` excludes the empty table, and a
save of a vault without enforcement may bring back the backup. -/
def fallback (m₀ : Machine) (Q : List AccountRecord → Prop) (hEmpty : WritesSucceed E ∨ ¬ Q []) :
    Regime P E where
  Held m A := Later m₀ m → Q A ∨ ∃ v, A = v.accounts ∧ WorkedOn P m₀ m v
  Good m := Later m₀ m → FellBack Q m₀ m
  Steady := False
  Unsure := ¬ WritesSucceed E
  Spoils v := ¬ WritesSucceed E ∧ hasEnforcedAccounts v = false
  good_of_later hLater hGood hSince :=
    (hGood (hSince.trans hLater)).of_later hSince.log_suffix hLater
  held_quiet h A hA hSince := by
    refine (hA (hSince.trans h.later)).imp_right ?_
    rintro ⟨v, rfl, hPrimary | ⟨file, hMem⟩⟩
    · exact ⟨v, rfl, .inl (h.disk ▸ hPrimary)⟩
    · rw [entriesSince_of_log_eq h.log] at hMem
      exact ⟨v, rfl, .inr ⟨file, hMem⟩⟩
  held_synchronize v m := by
    have hLog : Meets (synchronizeEnforcedRegistry E v) m fun _ n => OnlyFailures m n ∧ Later m n :=
      ⟨steps_onlyFailures.synchronizeEnforcedRegistry v m,
        steps_later.synchronizeEnforcedRegistry v m⟩
    refine ((meets_synchronizeEnforcedRegistry v m).and hLog).mono ?_
    rintro o n ⟨⟨hDisk, -⟩, hOnly, hAfter⟩ A hA hSince
    refine (hA (hSince.trans hAfter)).imp_right ?_
    rintro ⟨w, rfl, hPrimary | ⟨file, hMem⟩⟩
    · exact ⟨w, rfl, .inl (hDisk ▸ hPrimary)⟩
    · have hOld := (hOnly.mem_iff hSince.log_suffix LogEntry.noConfusion).mp hMem
      exact ⟨w, rfl, .inr ⟨file, hOld⟩⟩
  held_load m := by
    have hAfter : Meets (loadOrCreate P E) m fun _ n => Later m n := moves_loadOrCreate m
    refine ((meets_loadOrCreate m).and hAfter).mono ?_
    rintro o n ⟨hEnd, hLater⟩ hGood
    have hBoth : Later m₀ m → _ := fun hSince => workedOn_of_loadEnd hT hProtects hParses hEmpty
      hEnd hSince.log_suffix (hGood (hSince.trans hLater))
    refine ⟨fun A hA hSince => ?_, fun v hv hSince => ?_⟩
    · rcases hA (hSince.trans hLater) with hQ | ⟨w, rfl, hw⟩
      · exact .inl hQ
      · exact ((hBoth hSince).1 w hw).imp_right fun hOld => ⟨w, rfl, hOld⟩
    · exact ((hBoth hSince).2 v hv).imp_right fun hOld => ⟨v, rfl, hOld⟩
  held_save v m := by
    by_cases hSince : Later m₀ m
    · have hAfter : Meets (save P E v) m fun _ n => Later m n := steps_later.save v m
      refine ((workedOn_of_save hT hProtects hParses v m hSince.log_suffix).and hAfter).mono ?_
      rintro o n ⟨hWorked, hLater⟩ - A hA
      rcases hA (hSince.trans hLater) with hQ | ⟨w, rfl, hw⟩
      · exact .inl fun _ => .inl hQ
      · rcases hWorked w hw with hOld | hSpoils | ⟨hOk, hNew⟩
        · exact .inl fun _ => .inr ⟨w, rfl, hOld⟩
        · exact .inr ⟨.inl hSpoils.1, .inl hSpoils⟩
        · exact .inr ⟨hOk, .inr hNew⟩
    · exact fun _ A _ => .inl fun h => absurd h hSince
  steady _ _ _ h := h.elim

end Contracts

end BrokerService
end WindowsFidoLogon
