import WindowsFidoLogon.Credential.Ceremony
import WindowsFidoLogon.Model.CProvider

/-!
# Enumerations are complete, and old tiles are dead

The specification of an enumeration is `sidsOf`: the distinct SIDs of the local users
in the order in which they first appear, and the empty one of the anonymous tile.
The loop of `CreateCredentials` builds exactly that or fails, a run keeps what was
published until the next call that clears it, and whatever was handed out before such
a call is retired.
-/

namespace WindowsFidoLogon

open Text LocalAccount CCredential

namespace CProvider

open History

variable (P : Platform) (E : Enumeration)

/-! ## What an enumeration is for -/

/-- The text of a user's SID. -/
def sidText (user : CredentialProviderUser) : WString := cstr (user.getSid.2.getD [])

/-- A local user whose SID `ResolveLocalSid` accepts. -/
def Accepts (index : DWORD) (user : CredentialProviderUser) : Prop :=
  user.getProviderID.2 = Identity_LocalUserProvider ∧ sidText user ≠ [] ∧
    (resolveLocalSid P (E.surroundings (some index)).accounts (sidText user)).isOk = true

instance (index : DWORD) (user : CredentialProviderUser) : Decidable (Accepts P E index user) :=
  inferInstanceAs (Decidable (_ ∧ _ ∧ _))

/-- The SID of a user of the array that is to have a tile. -/
def acceptedSid (index : DWORD) : Option WString :=
  (E.getAt index).2.bind fun user =>
    if Accepts P E index user then some (sidText user) else none

/-- The user SIDs of the tiles of an enumeration, the anonymous one having none. -/
def sidsOf : List WString :=
  ((indexes E.getCount.2).filterMap (acceptedSid P E)).eraseDups ++
    if E.getAccountOptions.2 &&& CPAO_EMPTY_LOCAL ≠ 0 then [[]] else []

/-! ## The loop -/

theorem append_ok {round : Option DWORD} {scenario : UsageScenario}
    {username computer sid : WString} {credentials after : List CCredential}
    (h : append E round scenario username computer sid credentials = .ok after) :
    ∃ credential, after = credentials ++ [credential] ∧ Tile.Fresh { credential } ∧
      credential.userSid = cstr sid := by
  unfold append at h
  split at h
  · cases h
  · rename_i credential hCredential
    cases h
    refine ⟨credential, rfl, ⟨_, _, _, _, _, _, hCredential⟩, ?_⟩
    exact congrArg Core.userSid (Tile.initializeCredential_core _ hCredential)

/-- What the loop has found in the first users. -/
structure Loop (accepted : List WString) (found : Found) : Prop where
  seen : ∀ sid, sid ∈ found.seen ↔ sid ∈ accepted
  sids : found.credentials.map (·.userSid) = accepted.eraseDups
  fresh : ∀ credential ∈ found.credentials, Tile.Fresh { credential }

theorem eraseDups_concat {α : Type} [BEq α] [LawfulBEq α] (as : List α) (a : α) :
    (as ++ [a]).eraseDups = if a ∈ as then as.eraseDups else as.eraseDups ++ [a] := by
  rw [List.eraseDups_append]
  split
  · rename_i hMem
    rw [show [a].removeAll as = [] by simp [List.removeAll, hMem]]
    simp
  · rename_i hMem
    rw [show [a].removeAll as = [a] by simp [List.removeAll, hMem]]
    rfl

theorem Loop.skip {accepted : List WString} {found : Found} {index : DWORD}
    {user : CredentialProviderUser} (hLoop : Loop accepted found)
    (hUser : (E.getAt index).2 = some user) (hNot : ¬ Accepts P E index user) :
    Loop (accepted ++ (acceptedSid P E index).toList) found := by
  rw [acceptedSid, hUser, Option.bind_some, if_neg hNot, Option.toList_none, List.append_nil]
  exact hLoop

/-- One round of the loop. -/
theorem enumerateUser_loop {scenario : UsageScenario} {accepted : List WString}
    {found after : Found} {index : DWORD} (hLoop : Loop accepted found)
    (h : enumerateUser P E scenario found index = .ok after) :
    Loop (accepted ++ (acceptedSid P E index).toList) after := by
  unfold enumerateUser at h
  dsimp only at h
  split at h
  · cases h
  split at h
  · cases h
  rename_i user hUser
  split at h
  · cases h
  split at h
  · rename_i hProvider
    cases h
    exact hLoop.skip P E hUser fun hAccepts => hProvider hAccepts.1
  rename_i hProvider
  split at h
  · cases h
  split at h
  · rename_i hEmpty
    cases h
    exact hLoop.skip P E hUser fun hAccepts => hAccepts.2.1 (List.isEmpty_iff.mp hEmpty)
  rename_i hSid
  split at h
  · cases h
  split at h
  · rename_i hResolved
    cases h
    refine hLoop.skip P E hUser fun hAccepts => ?_
    have hOk := hAccepts.2.2
    unfold sidText at hOk
    rw [hResolved] at hOk
    cases hOk
  rename_i username hResolved
  have hAccepts : Accepts P E index user := by
    refine ⟨not_not.mp hProvider, fun hEmpty => hSid (List.isEmpty_iff.mpr hEmpty), ?_⟩
    unfold sidText
    rw [hResolved]
    rfl
  rw [acceptedSid, hUser, Option.bind_some, if_pos hAccepts, Option.toList_some]
  split at h
  · -- the SID was seen before
    rename_i hSeen
    cases h
    have hMem : sidText user ∈ accepted := (hLoop.seen _).mp hSeen
    refine ⟨fun sid => ?_, ?_, hLoop.fresh⟩
    · rw [hLoop.seen, List.mem_append, List.mem_singleton]
      exact ⟨.inl, fun h => h.elim id (· ▸ hMem)⟩
    · rw [eraseDups_concat, if_pos hMem]
      exact hLoop.sids
  · rename_i hSeen
    cases hAppended : append E (some index) scenario username
        (E.surroundings (some index)).accounts.computer (sidText user) found.credentials with
    | error status =>
        unfold sidText at hAppended
        rw [hAppended] at h
        cases h
    | ok credentials =>
        obtain ⟨credential, rfl, hFresh, hUserSid⟩ := append_ok E hAppended
        unfold sidText at hAppended
        rw [hAppended] at h
        cases h
        have hNew : sidText user ∉ accepted := fun hMem => hSeen ((hLoop.seen _).mpr hMem)
        refine ⟨fun sid => ?_, ?_, fun made hMade => ?_⟩
        · rw [List.mem_cons, hLoop.seen, List.mem_append, List.mem_singleton]
          exact or_comm
        · rw [eraseDups_concat, if_neg hNew, List.map_append, hLoop.sids]
          exact congrArg (_ ++ [·]) (hUserSid.trans (cstr_of_notMem (nul_notMem_cstr _)))
        · rcases List.mem_append.mp hMade with hOld | hLast
          · exact hLoop.fresh made hOld
          · rw [List.mem_singleton.mp hLast]
            exact hFresh

/-- The whole loop. -/
theorem enumerateUsers_loop {scenario : UsageScenario} {accepted : List WString}
    {found after : Found} {rest : List DWORD} (hLoop : Loop accepted found)
    (h : rest.foldlM (enumerateUser P E scenario) found = .ok after) :
    Loop (accepted ++ rest.filterMap (acceptedSid P E)) after := by
  induction rest generalizing accepted found with
  | nil =>
      cases h
      rw [List.filterMap_nil, List.append_nil]
      exact hLoop
  | cons index rest ih =>
      rw [List.foldlM_cons] at h
      cases hRound : enumerateUser P E scenario found index with
      | error status =>
          rw [hRound] at h
          cases h
      | ok first =>
          rw [hRound] at h
          have hRest := ih (enumerateUser_loop P E hLoop hRound) h
          rw [List.append_assoc] at hRest
          cases hAccepted : acceptedSid P E index with
          | none =>
              rw [hAccepted] at hRest
              rwa [List.filterMap_cons_none hAccepted]
          | some sid =>
              rw [hAccepted] at hRest
              rwa [List.filterMap_cons_some hAccepted]

/-- An enumeration that succeeds has made the specified tiles. -/
theorem enumerate_ok {scenario : UsageScenario} {credentials : List CCredential}
    (h : enumerate P E scenario = .ok credentials) :
    credentials.map (·.userSid) = sidsOf P E ∧
      ∀ credential ∈ credentials, Tile.Fresh { credential } := by
  unfold enumerate at h
  split at h
  · cases h
  cases hLoop : (indexes E.getCount.2).foldlM (enumerateUser P E scenario) {} with
  | error status =>
      rw [hLoop] at h
      cases h
  | ok found =>
      rw [hLoop] at h
      have hStart : Loop [] ({} : Found) := ⟨fun _ => Iff.rfl, rfl, fun _ hNone => nomatch hNone⟩
      have hFound := enumerateUsers_loop P E hStart hLoop
      rw [List.nil_append] at hFound
      replace h : (if failed E.getAccountOptions.1 then .error E.getAccountOptions.1
        else if E.getAccountOptions.2 &&& CPAO_EMPTY_LOCAL ≠ 0 then
          appendAnonymous E scenario found.credentials
        else .ok found.credentials) = Except.ok credentials := h
      unfold sidsOf
      split at h
      · cases h
      split at h
      · rename_i hAnonymous
        rw [if_pos hAnonymous]
        unfold appendAnonymous at h
        split at h
        · cases h
        · obtain ⟨credential, rfl, hFresh, hUserSid⟩ := append_ok E h
          refine ⟨?_, fun made hMade => ?_⟩
          · rw [List.map_append, hFound.sids]
            exact congrArg (_ ++ [·]) hUserSid
          · rcases List.mem_append.mp hMade with hOld | hLast
            · exact hFound.fresh made hOld
            · rw [List.mem_singleton.mp hLast]
              exact hFresh
      · rename_i hNamed
        cases h
        rw [if_neg hNamed, List.append_nil]
        exact ⟨hFound.sids, hFound.fresh⟩

/-! ## Failures -/

/-- A fold whose steps fail with failure codes only. -/
theorem foldlM_failed {σ α : Type} {write : σ → α → Except HRESULT σ}
    (hWrite : ∀ s a status, write s a = .error status → failed status = true) {values : List α}
    {s : σ} {status : HRESULT} (h : values.foldlM write s = .error status) :
    failed status = true := by
  induction values generalizing s with
  | nil => cases h
  | cons value rest ih =>
      rw [List.foldlM_cons] at h
      cases hFirst : write s value with
      | error e =>
          rw [hFirst] at h
          cases h
          exact hWrite s value _ hFirst
      | ok first =>
          rw [hFirst] at h
          exact ih h

theorem writeString_failed (S : Surroundings) (c : CCredential) (value : FieldId × WString)
    (status : HRESULT) (h : writeString S c value = .error status) : failed status = true := by
  unfold writeString at h
  dsimp only at h
  split at h
  · rename_i hFailed
    cases h
    exact hFailed
  · cases h

theorem initializeCredential_failed {S : Surroundings} {scenario : UsageScenario}
    {username domain password userSid : WString} {status : HRESULT}
    (h : initializeCredential S scenario username domain password userSid = .error status) :
    failed status = true := by
  have hDescribe : ∀ c field status, describeField S c field = .error status →
      failed status = true := by
    intro c field status hField
    unfold describeField at hField
    split at hField
    · exact writeString_failed S _ _ _ hField
    · cases hField
      decide
  unfold initializeCredential at h
  simp only [bind, Except.bind] at h
  split at h
  · rename_i hDescribed
    cases h
    exact foldlM_failed hDescribe hDescribed
  split at h
  · rename_i hWritten
    cases h
    exact foldlM_failed (writeString_failed S) hWritten
  split at h
  · rename_i hFailed
    cases h
    exact hFailed
  · cases h

theorem append_failed {round : Option DWORD} {scenario : UsageScenario}
    {username computer sid : WString} {credentials : List CCredential} {status : HRESULT}
    (h : append E round scenario username computer sid credentials = .error status) :
    failed status = true := by
  unfold append at h
  split at h
  · rename_i hCredential
    cases h
    exact initializeCredential_failed hCredential
  · cases h

theorem enumerateUser_failed (scenario : UsageScenario) (found : Found) (index : DWORD)
    (status : HRESULT) (h : enumerateUser P E scenario found index = .error status) :
    failed status = true := by
  unfold enumerateUser at h
  dsimp only at h
  split at h
  · rename_i hFailed
    cases h
    exact hFailed
  split at h
  · cases h
    decide
  split at h
  · rename_i hFailed
    cases h
    exact hFailed
  split at h
  · cases h
  split at h
  · rename_i hFailed
    cases h
    exact hFailed
  split at h
  · cases h
  split at h
  · cases h
    decide
  split at h
  · cases h
  split at h
  · cases h
  · simp only [bind, Except.bind] at h
    split at h
    · rename_i hAppended
      cases h
      exact append_failed E hAppended
    · cases h

theorem enumerate_failed {scenario : UsageScenario} {status : HRESULT}
    (h : enumerate P E scenario = .error status) : failed status = true := by
  unfold enumerate at h
  split at h
  · rename_i hFailed
    cases h
    exact hFailed
  simp only [bind, Except.bind] at h
  split at h
  · rename_i hLoop
    cases h
    exact foldlM_failed (enumerateUser_failed P E scenario) hLoop
  split at h
  · rename_i hFailed
    cases h
    exact hFailed
  split at h
  · unfold appendAnonymous at h
    split at h
    · cases h
      decide
    · exact append_failed E h
  · cases h

/-- The exits of `CreateCredentials`. -/
inductive Created (p : CProvider) : HRESULT × CProvider → Prop
  | cached (hReady : p.credentialsReady = true) : Created p (S_OK, p)
  | failed {status : HRESULT} (hReady : p.credentialsReady = false)
      (hFailed : failed status = true) : Created p (status, p)
  | noUsers (hReady : p.credentialsReady = false) (hUsers : p.users = false) : Created p (S_OK, p)
  | published {credentials : List CCredential} (hReady : p.credentialsReady = false)
      (hEnumerated : enumerate P E p.scenario = .ok credentials) :
      Created p (S_OK, p.publish credentials)

theorem createCredentials_cases (p : CProvider) : Created P E p (p.createCredentials P E) := by
  unfold createCredentials
  split
  · rename_i hReady
    exact .cached hReady
  rename_i hReady
  replace hReady := Bool.eq_false_iff.mpr hReady
  split
  · exact .failed hReady (by decide)
  split
  · rename_i hUsers
    exact .noUsers hReady (Bool.not_eq_true' _ |>.mp hUsers)
  split
  · rename_i hEnumerated
    exact .failed hReady (enumerate_failed P E hEnumerated)
  · rename_i hEnumerated
    exact .published hReady hEnumerated

/-! ## Objects -/

/-- The credentials of the list. -/
def published (p : CProvider) : List Tile := p.credentials.filterMap (p.objects[·]?)

/-- Every object is still there: it keeps its binding, and stays retired. -/
def Evolves (p q : CProvider) : Prop :=
  ∀ (place : Nat) (tile : Tile), p.objects[place]? = some tile →
    ∃ later, q.objects[place]? = some later ∧ later.core.userSid = tile.core.userSid ∧
      (tile.core.retired = true → later.core.retired = true)

theorem Evolves.refl (p : CProvider) : Evolves p p := fun _ tile h => ⟨tile, h, rfl, id⟩

theorem Evolves.trans {p q r : CProvider} (h : Evolves p q) (h' : Evolves q r) : Evolves p r := by
  intro place tile hTile
  obtain ⟨later, hLater, hSid, hRetired⟩ := h place tile hTile
  obtain ⟨last, hLast, hLastSid, hLastRetired⟩ := h' place later hLater
  exact ⟨last, hLast, hLastSid.trans hSid, hLastRetired ∘ hRetired⟩

theorem eachCredential_getElem (f : Nat → Tile → Tile) (p : CProvider) (place : Nat) :
    (p.eachCredential f).objects[place]? =
      p.objects[place]?.map fun tile => if place ∈ p.credentials then f place tile else tile :=
  List.getElem?_mapIdx

theorem evolves_eachCredential {f : Nat → Tile → Tile}
    (hSid : ∀ place tile, (f place tile).core.userSid = tile.core.userSid)
    (hRetired : ∀ place tile, tile.core.retired = true → (f place tile).core.retired = true)
    (p : CProvider) : Evolves p (p.eachCredential f) := by
  intro place tile hTile
  rw [eachCredential_getElem, hTile]
  refine ⟨_, rfl, ?_⟩
  split
  · exact ⟨hSid place tile, hRetired place tile⟩
  · exact ⟨rfl, id⟩

theorem retire_core (S : Surroundings) (tile : Tile) :
    (tile.retire S).2.core.userSid = tile.core.userSid ∧
      (tile.retire S).2.core.retired = true := by
  unfold Tile.retire
  rw [Tile.fullReset_core]
  exact ⟨rfl, rfl⟩

theorem evolves_clearCredentials (S : Nat → Surroundings) (p : CProvider) :
    Evolves p (p.clearCredentials S) :=
  evolves_eachCredential (f := fun place tile => (tile.retire (S place)).2)
    (fun place tile => (retire_core (S place) tile).1)
    (fun place tile _ => (retire_core (S place) tile).2) p

theorem evolves_unAdvise (S : Nat → Surroundings) (p : CProvider) :
    Evolves p (p.unAdvise S).2 := by
  refine evolves_eachCredential (f := fun place tile => tile.fullReset (S place)) ?_ ?_ p
  · intro place tile
    rw [Tile.fullReset_core]
  · intro place tile hRetired
    rw [Tile.fullReset_core]
    exact hRetired

theorem evolves_publish (credentials : List CCredential) (p : CProvider) :
    Evolves p (p.publish credentials) := by
  intro place tile hTile
  refine ⟨tile, ?_, rfl, id⟩
  obtain ⟨hPlace, -⟩ := List.getElem?_eq_some_iff.mp hTile
  exact (List.getElem?_append_left hPlace).trans hTile

theorem evolves_created (p : CProvider) : Evolves p (p.createCredentials P E).2 := by
  have hCreated := createCredentials_cases P E p
  generalize p.createCredentials P E = end_ at hCreated ⊢
  cases hCreated with
  | published hReady hEnumerated => exact evolves_publish _ p
  | _ => exact .refl p

theorem getCredentialCount_after (outputs : Bool) (p : CProvider) :
    (p.getCredentialCount P E outputs).2 =
      if outputs then (p.createCredentials P E).2 else p := by
  unfold getCredentialCount
  cases outputs with
  | false => rfl
  | true =>
      dsimp only
      split
      · rename_i hOutputs
        cases hOutputs
      · split <;> rfl

theorem getCredentialAt_after (index : DWORD) (output : Bool) (p : CProvider) :
    (p.getCredentialAt P E index output).2 =
      if output then (p.createCredentials P E).2 else p := by
  unfold getCredentialAt
  cases output with
  | false => rfl
  | true =>
      dsimp only
      split
      · rename_i hOutput
        cases hOutput
      · split
        · rfl
        · split <;> rfl

/-- No call loses an object. -/
theorem evolves_step (p : CProvider) (call : Call) : Evolves p (step P p call) := by
  cases call with
  | setUsageScenario scenario S => exact evolves_clearCredentials S p
  | setUserArray users S => exact evolves_clearCredentials S p
  | advise events S =>
      show Evolves p (p.advise events S).2
      unfold advise
      split
      · exact .refl p
      · exact evolves_unAdvise S p
  | unAdvise S => exact evolves_unAdvise S p
  | getCredentialCount outputs E =>
      show Evolves p (p.getCredentialCount P E outputs).2
      rw [getCredentialCount_after]
      split
      · exact evolves_created P E p
      · exact .refl p
  | getCredentialAt index output E =>
      show Evolves p (p.getCredentialAt P E index output).2
      rw [getCredentialAt_after]
      split
      · exact evolves_created P E p
      · exact .refl p
  | credential place callback S =>
      intro other tile hTile
      show ∃ later, (p.objects.modify place fun tile =>
        (tile.perform P S callback).2)[other]? = some later ∧ _
      rw [List.getElem?_modify, hTile]
      refine ⟨_, rfl, ?_⟩
      split
      · refine ⟨Tile.perform_userSid P S tile callback, fun hRetired => ?_⟩
        rcases Tile.perform_retired P S tile callback with hSame | ⟨-, hRetire⟩
        · exact hSame.trans hRetired
        · exact hRetire
      · exact ⟨rfl, id⟩

theorem evolves_run (p : CProvider) (calls : List Call) : Evolves p (run (step P) p calls) := by
  induction calls generalizing p with
  | nil => exact .refl p
  | cons call calls ih => exact (evolves_step P p call).trans (ih _)

/-! ## The list and the ready flag -/

/-- The list names objects, is empty as long as it is not ready, and what it does not
name is retired. -/
structure Consistent (p : CProvider) : Prop where
  unready : p.credentialsReady = false → p.credentials = []
  bounded : ∀ place ∈ p.credentials, place < p.objects.length
  stale : ∀ place tile, p.objects[place]? = some tile → place ∉ p.credentials →
    tile.core.retired = true

theorem consistent_start (isRemoteSession : Bool) : Consistent (start isRemoteSession) :=
  ⟨fun _ => rfl, nofun, nofun⟩

/-- A step that keeps the list. -/
theorem Consistent.of_same {p q : CProvider} (h : Consistent p)
    (hCredentials : q.credentials = p.credentials)
    (hReady : q.credentialsReady = p.credentialsReady)
    (hLength : q.objects.length = p.objects.length) (hEvolves : Evolves p q) : Consistent q where
  unready hUnready := hCredentials.trans (h.unready (hReady ▸ hUnready))
  bounded place hPlace := by
    rw [hCredentials] at hPlace
    rw [hLength]
    exact h.bounded place hPlace
  stale place tile hTile hNot := by
    rw [hCredentials] at hNot
    obtain ⟨hPlace, -⟩ := List.getElem?_eq_some_iff.mp hTile
    have hOld := List.getElem?_eq_getElem (hLength ▸ hPlace)
    obtain ⟨later, hLater, -, hRetired⟩ := hEvolves place _ hOld
    obtain rfl := Option.some.inj (hTile.symm.trans hLater)
    exact hRetired (h.stale place _ hOld hNot)

theorem consistent_clearCredentials {p : CProvider} (h : Consistent p) (S : Nat → Surroundings) :
    Consistent (p.clearCredentials S) where
  unready _ := rfl
  bounded := nofun
  stale place tile hTile _ := by
    have hEach := eachCredential_getElem (fun place tile => (tile.retire (S place)).2) p place
    rw [show (p.clearCredentials S).objects = (p.eachCredential fun place tile =>
      (tile.retire (S place)).2).objects from rfl, hEach] at hTile
    obtain ⟨old, hOld, rfl⟩ := Option.map_eq_some_iff.mp hTile
    split
    · exact (retire_core (S place) old).2
    · rename_i hNot
      exact h.stale place old hOld hNot

theorem publish_length (credentials : List CCredential) (p : CProvider) :
    (p.publish credentials).objects.length = p.objects.length + credentials.length := by
  simp [publish]

theorem consistent_publish {p : CProvider} (h : Consistent p)
    (hReady : p.credentialsReady = false) (credentials : List CCredential) :
    Consistent (p.publish credentials) where
  unready hUnready := nomatch hUnready
  bounded place hPlace := by
    have hRange := (List.mem_range'_1.mp hPlace).2
    rw [publish_length]
    exact hRange
  stale place tile hTile hNot := by
    have hBelow : place < p.objects.length := by
      by_contra hAbove
      obtain ⟨hPlace, -⟩ := List.getElem?_eq_some_iff.mp hTile
      refine hNot (List.mem_range'_1.mpr ⟨not_lt.mp hAbove, ?_⟩)
      rwa [publish_length] at hPlace
    have hOld : (p.publish credentials).objects[place]? = p.objects[place]? :=
      List.getElem?_append_left hBelow
    refine h.stale place tile (hOld ▸ hTile) ?_
    rw [h.unready hReady]
    nofun

theorem consistent_created {p : CProvider} (h : Consistent p) :
    Consistent (p.createCredentials P E).2 := by
  have hCreated := createCredentials_cases P E p
  generalize p.createCredentials P E = end_ at hCreated ⊢
  cases hCreated with
  | published hReady hEnumerated => exact consistent_publish h hReady _
  | _ => exact h

theorem consistent_step {p : CProvider} (h : Consistent p) (call : Call) :
    Consistent (step P p call) := by
  have hEvolves := evolves_step P p call
  cases call with
  | setUsageScenario scenario S => exact { consistent_clearCredentials h S with }
  | setUserArray users S => exact { consistent_clearCredentials h S with }
  | advise events S =>
      cases events with
      | false => exact h
      | true => exact h.of_same rfl rfl List.length_mapIdx hEvolves
  | unAdvise S => exact h.of_same rfl rfl List.length_mapIdx hEvolves
  | getCredentialCount outputs E =>
      show Consistent (p.getCredentialCount P E outputs).2
      rw [getCredentialCount_after]
      split
      · exact consistent_created P E h
      · exact h
  | getCredentialAt index output E =>
      show Consistent (p.getCredentialAt P E index output).2
      rw [getCredentialAt_after]
      split
      · exact consistent_created P E h
      · exact h
  | credential place callback S => exact h.of_same rfl rfl (List.length_modify ..) hEvolves

theorem consistent_run (isRemoteSession : Bool) (calls : List Call) :
    Consistent (run (step P) (start isRemoteSession) calls) :=
  run_keeps (I := Consistent) (C := fun _ _ => True) (fun _ call h _ => consistent_step P h call)
    (consistent_start isRemoteSession) (along_of_forall fun _ _ => trivial)

/-! ## The discipline of enumerations -/

/-- Reading a list at all its places. -/
theorem filterMap_getElem_range {α : Type} (as : List α) :
    (List.range as.length).filterMap (as[·]?) = as := by
  induction as with
  | nil => rfl
  | cons a as ih =>
      have hFirst : (a :: as)[0]? = some a := rfl
      rw [List.length_cons, List.range_succ_eq_map, List.filterMap_cons_some hFirst,
        List.filterMap_map]
      exact congrArg _ ih

theorem published_publish (credentials : List CCredential) (p : CProvider) :
    (p.publish credentials).published = credentials.map fun credential => { credential } := by
  have hNew : ∀ k, (p.publish credentials).objects[p.objects.length + k]? =
      (credentials.map fun credential => ({ credential } : Tile))[k]? := fun k =>
    (List.getElem?_append_right (Nat.le_add_right _ k)).trans (by rw [Nat.add_sub_cancel_left])
  have hPlaces : (p.publish credentials).published =
      ((List.range credentials.length).map (p.objects.length + ·)).filterMap
        ((p.publish credentials).objects[·]?) := by
    rw [← List.range'_eq_map_range]
    rfl
  rw [hPlaces, List.filterMap_map,
    ← filterMap_getElem_range (credentials.map fun credential => ({ credential } : Tile)),
    List.length_map]
  exact List.filterMap_congr fun k _ => hNew k

/-- The published tiles keep their bindings while the list stays. -/
theorem Evolves.published {p q : CProvider} (h : Evolves p q)
    (hBounded : ∀ place ∈ p.credentials, place < p.objects.length)
    (hCredentials : q.credentials = p.credentials) :
    q.published.map (·.core.userSid) = p.published.map (·.core.userSid) := by
  unfold CProvider.published
  rw [hCredentials, List.map_filterMap, List.map_filterMap]
  refine List.filterMap_congr fun place hPlace => ?_
  have hOld := List.getElem?_eq_getElem (hBounded place hPlace)
  obtain ⟨later, hLater, hSid, -⟩ := h place _ hOld
  rw [hOld, hLater]
  exact congrArg some hSid

/-- A call that does not clear keeps a list that is ready. -/
theorem step_credentials {p : CProvider} (hReady : p.credentialsReady = true) {call : Call}
    (hCall : call.clears = false) :
    (step P p call).credentials = p.credentials ∧ (step P p call).credentialsReady = true := by
  have hCreated : ∀ E, p.createCredentials P E = (S_OK, p) := fun E => by
    rw [createCredentials, if_pos hReady]
  cases call with
  | setUsageScenario scenario S => cases hCall
  | setUserArray users S => cases hCall
  | advise events S => cases events <;> exact ⟨rfl, hReady⟩
  | unAdvise S => exact ⟨rfl, hReady⟩
  | getCredentialCount outputs E =>
      show (p.getCredentialCount P E outputs).2.credentials = _ ∧
        (p.getCredentialCount P E outputs).2.credentialsReady = true
      rw [getCredentialCount_after, hCreated]
      cases outputs <;> exact ⟨rfl, hReady⟩
  | getCredentialAt index output E =>
      show (p.getCredentialAt P E index output).2.credentials = _ ∧
        (p.getCredentialAt P E index output).2.credentialsReady = true
      rw [getCredentialAt_after, hCreated]
      cases output <;> exact ⟨rfl, hReady⟩
  | credential place callback S => exact ⟨rfl, hReady⟩

theorem run_credentials {p : CProvider} (hReady : p.credentialsReady = true) {calls : List Call}
    (hCalls : ∀ call ∈ calls, call.clears = false) :
    (run (step P) p calls).credentials = p.credentials ∧
      (run (step P) p calls).credentialsReady = true := by
  induction calls generalizing p with
  | nil => exact ⟨rfl, hReady⟩
  | cons call calls ih =>
      obtain ⟨hSame, hStill⟩ := step_credentials P hReady (hCalls call List.mem_cons_self)
      obtain ⟨hRest, hEnd⟩ := ih hStill fun other hOther => hCalls other (List.mem_cons_of_mem _ hOther)
      exact ⟨hRest.trans hSame, hEnd⟩

/-- A retired credential refuses every input and emits nothing; a call with missing or
invalid arguments is refused for these first. -/
structure Dead (tile : Tile) : Prop where
  connect : ∀ S, tile.connect P S = ({ status := E_UNEXPECTED }, tile)
  setStringValue : ∀ S field value, tile.setStringValue S field value =
    ({ status := if (FieldId.ofIndex field).isSome ∧ value.isSome then E_UNEXPECTED
        else E_INVALIDARG }, tile)
  getSerialization : ∀ S outputs, tile.getSerialization S outputs =
    ({ status := if outputs then E_UNEXPECTED else E_INVALIDARG }, tile)

theorem dead_of_retired {tile : Tile} (hRetired : tile.core.retired = true) : Dead P tile := by
  have hUsed : tile.credential.retired = true := hRetired
  refine ⟨fun S => ?_, fun S field value => ?_, fun S outputs => ?_⟩
  · rw [Tile.connect, if_pos hUsed]
  · unfold Tile.setStringValue
    cases hField : FieldId.ofIndex field with
    | none => simp
    | some known =>
        cases value with
        | none => simp
        | some text => simp [hUsed]
  · unfold Tile.getSerialization
    cases outputs with
    | false => rfl
    | true => simp [hUsed]

/-- The state after the calls of a run from a new provider. -/
def after (isRemoteSession : Bool) (calls : List Call) : CProvider :=
  run (step P) (start isRemoteSession) calls

/-- `GetCredentialAt` gave out this credential. -/
def HandedOut (isRemoteSession : Bool) (calls : List Call) (place : Nat) : Prop :=
  ∃ pre index output E post, calls = pre ++ .getCredentialAt index output E :: post ∧
    ((after P isRemoteSession pre).getCredentialAt P E index output).1.credential = some place

/-- What holds after the calls of a run from a new provider. -/
structure Disciplined (isRemoteSession : Bool) (calls : List Call) : Prop where
  /-- An enumeration that fails reports the count 0, and publishes nothing. -/
  fails : ∀ call E, call.enumeration = some E →
    failed ((after P isRemoteSession calls).createCredentials P E).1 = true →
    let end_ := (after P isRemoteSession calls).perform P call
    (∀ count, end_.1.count = some count → count = 0) ∧ end_.1.credential = none ∧
      end_.2.published = []
  /-- An enumeration that succeeds publishes exactly the specified tiles. -/
  succeeds : ∀ call E, call.enumeration = some E →
    (after P isRemoteSession calls).credentialsReady = false →
    (after P isRemoteSession calls).users = true →
    failed ((after P isRemoteSession calls).createCredentials P E).1 = false →
    let end_ := (after P isRemoteSession calls).perform P call
    end_.2.published.map (·.core.userSid) = sidsOf P E ∧
      (∀ tile ∈ end_.2.published, Tile.Fresh tile) ∧ end_.2.credentialsReady = true
  /-- Until the next call that clears, the same credentials are given out. -/
  repeats : (after P isRemoteSession calls).credentialsReady = true →
    ∀ later : List Call, (∀ call ∈ later, call.clears = false) →
    (after P isRemoteSession (calls ++ later)).published.map (·.core.userSid) =
        (after P isRemoteSession calls).published.map (·.core.userSid) ∧
      ∀ call E, call.enumeration = some E →
        ((after P isRemoteSession (calls ++ later)).perform P call).1 =
          ((after P isRemoteSession calls).perform P call).1
  /-- Whatever was handed out before a call that clears is dead. -/
  stale : ∀ earlier clear later, calls = earlier ++ clear :: later → clear.clears = true →
    ∀ place, HandedOut P isRemoteSession earlier place →
    ∃ tile, (after P isRemoteSession calls).objects[place]? = some tile ∧
      tile.core.retired = true ∧ Dead P tile

theorem perform_enumeration {call : Call} (hCall : call.enumeration = some E) (p : CProvider) :
    (p.perform P call).2 = (p.createCredentials P E).2 := by
  cases call with
  | getCredentialCount outputs E' =>
      cases outputs with
      | false => cases hCall
      | true =>
          cases hCall
          exact getCredentialCount_after P _ true p
  | getCredentialAt index output E' =>
      cases output with
      | false => cases hCall
      | true =>
          cases hCall
          exact getCredentialAt_after P _ index true p
  | _ => cases hCall

/-- The reply of an enumerating call depends on the list only. -/
theorem perform_ready {call : Call} (hCall : call.enumeration = some E) {p q : CProvider}
    (hReady : p.credentialsReady = true) (hReady' : q.credentialsReady = true)
    (hCredentials : q.credentials = p.credentials) :
    (q.perform P call).1 = (p.perform P call).1 := by
  have hCreated : ∀ E, p.createCredentials P E = (S_OK, p) := fun E => by
    rw [createCredentials, if_pos hReady]
  have hCreated' : ∀ E, q.createCredentials P E = (S_OK, q) := fun E => by
    rw [createCredentials, if_pos hReady']
  cases call with
  | getCredentialCount outputs E' =>
      show (q.getCredentialCount P E' outputs).1 = (p.getCredentialCount P E' outputs).1
      unfold getCredentialCount
      simp only [hCreated, hCreated', hCredentials]
      split
      · rfl
      · split <;> rfl
  | getCredentialAt index output E' =>
      show (q.getCredentialAt P E' index output).1 = (p.getCredentialAt P E' index output).1
      unfold getCredentialAt
      simp only [hCreated, hCreated', hCredentials]
      split
      · rfl
      · split
        · rfl
        · split <;> rfl
  | _ => cases hCall

/-- A failed enumeration leaves the provider as it was. -/
theorem created_of_failed {p : CProvider}
    (hFailed : failed (p.createCredentials P E).1 = true) :
    (p.createCredentials P E).2 = p ∧ p.credentialsReady = false := by
  have hCreated := createCredentials_cases P E p
  generalize p.createCredentials P E = end_ at hCreated hFailed ⊢
  cases hCreated with
  | failed hReady => exact ⟨rfl, hReady⟩
  | _ => cases hFailed

theorem reply_of_failed {call : Call} (hCall : call.enumeration = some E) {p : CProvider}
    (hFailed : failed (p.createCredentials P E).1 = true) :
    (∀ count, (p.perform P call).1.count = some count → count = 0) ∧
      (p.perform P call).1.credential = none := by
  cases call with
  | getCredentialCount outputs E' =>
      cases outputs with
      | false => cases hCall
      | true =>
          cases hCall
          simp only [perform, getCredentialCount, hFailed, Bool.not_true, Bool.false_eq_true,
            if_false, if_true, and_true]
          exact fun count hCount => (Option.some.inj hCount).symm
  | getCredentialAt index output E' =>
      cases output with
      | false => cases hCall
      | true =>
          cases hCall
          simp only [perform, getCredentialAt, hFailed, Bool.not_true, Bool.false_eq_true,
            if_false, if_true, and_true]
          nofun
  | _ => cases hCall

/-- What an enumeration has published when it succeeds. -/
theorem published_of_created {p : CProvider} (hReady : p.credentialsReady = false)
    (hUsers : p.users = true) (hOk : failed (p.createCredentials P E).1 = false) :
    (p.createCredentials P E).2.published.map (·.core.userSid) = sidsOf P E ∧
      (∀ tile ∈ (p.createCredentials P E).2.published, Tile.Fresh tile) ∧
        (p.createCredentials P E).2.credentialsReady = true := by
  have hCreated := createCredentials_cases P E p
  generalize p.createCredentials P E = end_ at hCreated hOk ⊢
  cases hCreated with
  | cached hCached => cases hReady.symm.trans hCached
  | failed hUnready hFailed => cases hOk.symm.trans hFailed
  | noUsers hUnready hNoUsers => cases hUsers.symm.trans hNoUsers
  | @published credentials hUnready hEnumerated =>
      obtain ⟨hSids, hFresh⟩ := enumerate_ok P E hEnumerated
      rw [published_publish]
      refine ⟨(List.map_map ..).trans hSids, fun tile hTile => ?_, rfl⟩
      obtain ⟨credential, hCredential, rfl⟩ := List.mem_map.mp hTile
      exact hFresh credential hCredential

/-- A credential that is handed out is an object of the list. -/
theorem handedOut_mem {index : DWORD} {output : Bool} {place : Nat} {p : CProvider}
    (h : (p.getCredentialAt P E index output).1.credential = some place) :
    place ∈ (p.getCredentialAt P E index output).2.credentials := by
  unfold getCredentialAt at h ⊢
  dsimp only at h ⊢
  split at h
  · cases h
  rename_i hOutput
  rw [if_neg hOutput]
  split at h
  · cases h
  rename_i hOk
  rw [if_neg hOk]
  split at h
  · cases h
  · rename_i known hKnown
    cases h
    exact List.mem_of_getElem? hKnown

theorem clears_credentials {call : Call} (hClears : call.clears = true) (p : CProvider) :
    (step P p call).credentials = [] := by
  cases call with
  | setUsageScenario scenario S => rfl
  | setUserArray users S => rfl
  | _ => cases hClears

theorem after_append (isRemoteSession : Bool) (calls later : List Call) :
    after P isRemoteSession (calls ++ later) =
      run (step P) (after P isRemoteSession calls) later := run_append _ _ _

/-- What was handed out before a call that clears is retired at the end. -/
theorem stale_retired {isRemoteSession : Bool} {earlier later : List Call} {clear : Call}
    (hClears : clear.clears = true) {place : Nat}
    (hHanded : HandedOut P isRemoteSession earlier place) :
    ∃ tile, (after P isRemoteSession (earlier ++ clear :: later)).objects[place]? = some tile ∧
      tile.core.retired = true := by
  obtain ⟨pre, index, output, E, post, rfl, hGiven⟩ := hHanded
  -- it is an object from then on
  have hGiving : Consistent (step P (after P isRemoteSession pre)
      (.getCredentialAt index output E)) :=
    consistent_step P (consistent_run P isRemoteSession pre) _
  have hObject := List.getElem?_eq_getElem (hGiving.bounded place (handedOut_mem P E hGiven))
  obtain ⟨held, hHeld, -⟩ := evolves_run P _ post place _ hObject
  -- the call that clears leaves it out of the list
  have hBefore : after P isRemoteSession (pre ++ .getCredentialAt index output E :: post) =
      run (step P) (step P (after P isRemoteSession pre) (.getCredentialAt index output E)) post :=
    after_append P isRemoteSession pre _
  rw [after_append, run_cons, hBefore]
  generalize run (step P) _ post = before at hHeld hBefore ⊢
  obtain ⟨cleared, hCleared, -⟩ := evolves_step P before clear place held hHeld
  have hAfter : Consistent (step P before clear) := by
    rw [← hBefore]
    exact consistent_step P (consistent_run P isRemoteSession _) clear
  have hRetired := hAfter.stale place cleared hCleared (by rw [clears_credentials P hClears]; nofun)
  -- and nothing revives it
  obtain ⟨last, hLast, -, hKept⟩ := evolves_run P _ later place cleared hCleared
  exact ⟨last, hLast, hKept hRetired⟩

/-- Every run is disciplined. -/
theorem enumeration_disciplined (isRemoteSession : Bool) (calls : List Call) :
    Disciplined P isRemoteSession calls := by
  have hConsistent : Consistent (after P isRemoteSession calls) :=
    consistent_run P isRemoteSession calls
  refine ⟨fun call E hCall hFailed => ?_, fun call E hCall hReady hUsers hOk => ?_,
    fun hReady later hLater => ?_, fun earlier clear later hCalls hClears place hHanded => ?_⟩
  · obtain ⟨hSame, hUnready⟩ := created_of_failed P E hFailed
    obtain ⟨hCount, hCredential⟩ := reply_of_failed P E hCall hFailed
    refine ⟨hCount, hCredential, ?_⟩
    rw [perform_enumeration P E hCall, hSame, CProvider.published, hConsistent.unready hUnready]
    rfl
  · dsimp only
    rw [perform_enumeration P E hCall]
    exact published_of_created P E hReady hUsers hOk
  · obtain ⟨hCredentials, hStill⟩ := run_credentials P hReady hLater
    have hEvolves := evolves_run P (after P isRemoteSession calls) later
    rw [after_append]
    exact ⟨hEvolves.published hConsistent.bounded hCredentials,
      fun call E hCall => perform_ready P E hCall hReady hStill hCredentials⟩
  · subst hCalls
    obtain ⟨tile, hTile, hRetired⟩ := stale_retired P hClears hHanded
    exact ⟨tile, hTile, hRetired, dead_of_retired P hRetired⟩

/-! ## Examples -/

/-- An array without users that asks for the anonymous tile. -/
def emptyArray : Enumeration where
  getCount := (S_OK, 0)
  getAt _ := (E_FAIL, none)
  getAccountOptions := (S_OK, CPAO_EMPTY_LOCAL)
  allocates _ := true
  surroundings _ := Tile.calm none

/-- LogonUI takes the anonymous tile. -/
def takesAnonymous : List Call :=
  [.setUsageScenario .logon fun _ => Tile.calm none, .setUserArray true fun _ => Tile.calm none,
    .getCredentialAt 0 true emptyArray]

/-- A retired tile checks the arguments before anything else: a field that does not
exist is an invalid argument. -/
theorem stale_status_counterexample :
    ¬ ∀ (P : Platform) (isRemoteSession : Bool) (earlier : List Call) (clear : Call)
        (later : List Call) (place : Nat) (tile : Tile), clear.clears = true →
      HandedOut P isRemoteSession earlier place →
      (after P isRemoteSession (earlier ++ clear :: later)).objects[place]? = some tile →
      ∀ S field value, (tile.setStringValue S field value).1.status = E_UNEXPECTED := by
  intro h
  have hHanded : HandedOut (Reference.platform {}) false takesAnonymous 0 :=
    ⟨takesAnonymous.take 2, 0, true, emptyArray, [], rfl, by decide +kernel⟩
  obtain ⟨tile, hTile, -⟩ := show ∃ tile, (after (Reference.platform {}) false (takesAnonymous ++
      [.setUserArray true fun _ => Tile.calm none])).objects[0]? = some tile ∧ _ from
    stale_retired (Reference.platform {}) rfl hHanded
  have hStatus := h _ _ _ _ _ _ tile rfl hHanded hTile (Tile.calm none) 99 none
  exact absurd (show E_INVALIDARG = E_UNEXPECTED from hStatus) (by decide)

end CProvider
end WindowsFidoLogon
