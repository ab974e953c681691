import WindowsFidoLogon.Model.CCredential

/-!
# The provider that enumerates the tiles

`CProvider.cpp`: which credentials exist for the users that LogonUI names.  The
credentials are objects that LogonUI may hold for longer than the provider does,
so a provider's state lists every object it ever published, and its own list
refers to them by their place.
-/

namespace WindowsFidoLogon

open Text LocalAccount

abbrev GUID : Type := BitVec 128

def Identity_LocalUserProvider : GUID := 0xA198529B730F4089B646A12557F5665E

/-- The flag of `CREDENTIAL_PROVIDER_ACCOUNT_OPTIONS` for an anonymous local tile. -/
def CPAO_EMPTY_LOCAL : UInt32 := 1

/-- What one `ICredentialProviderUser` answers. -/
structure CredentialProviderUser where
  getProviderID : HRESULT × GUID
  /-- a C string, or a null pointer -/
  getSid : HRESULT × Option WString

/-- What the user array, the account database and the memory answer while
`CreateCredentials` runs.  A round is the one of a user, or the last one for the
anonymous tile. -/
structure Enumeration where
  getCount : HRESULT × DWORD
  getAt : DWORD → HRESULT × Option CredentialProviderUser
  getAccountOptions : HRESULT × UInt32
  /-- no `bad_alloc` in the round -/
  allocates : Option DWORD → Bool
  surroundings : Option DWORD → Surroundings

structure CProvider where
  isRemoteSession : Bool
  scenario : UsageScenario := .invalid
  /-- whether `_users` is set -/
  users : Bool := false
  /-- every credential that was published, the oldest first -/
  objects : List Tile := []
  /-- the places of the credentials in `objects` -/
  credentials : List Nat := []
  credentialsReady : Bool := false

namespace CProvider

open CCredential

variable (P : Platform) (E : Enumeration)

/-- Do something to every credential of the list. -/
def eachCredential (f : Nat → Tile → Tile) (p : CProvider) : CProvider :=
  { p with objects := p.objects.mapIdx fun place tile =>
      if place ∈ p.credentials then f place tile else tile }

/-- The old enumeration ends: LogonUI may still hold its credentials. -/
def clearCredentials (S : Nat → Surroundings) (p : CProvider) : CProvider :=
  { p.eachCredential fun place tile => (tile.retire (S place)).2 with
    credentials := [], credentialsReady := false }

def setUsageScenario (scenario : UsageScenario) (S : Nat → Surroundings) (p : CProvider) :
    HRESULT × CProvider :=
  (if p.isRemoteSession then E_NOTIMPL
    else if scenario = .logon ∨ scenario = .unlockWorkstation then S_OK else E_NOTIMPL,
    { p.clearCredentials S with scenario })

def setUserArray (users : Bool) (S : Nat → Surroundings) (p : CProvider) : HRESULT × CProvider :=
  (S_OK, { p.clearCredentials S with users })

def unAdvise (S : Nat → Surroundings) (p : CProvider) : HRESULT × CProvider :=
  (S_OK, p.eachCredential fun place tile => tile.fullReset (S place))

/-- `Advise`; `events` tells that the pointer is not null. -/
def advise (events : Bool) (S : Nat → Surroundings) (p : CProvider) : HRESULT × CProvider :=
  if !events then (E_INVALIDARG, p) else (S_OK, (p.unAdvise S).2)

/-! ## Enumeration -/

/-- The local variables of the loop of `CreateCredentials`. -/
structure Found where
  seen : List WString := []
  credentials : List CCredential := []

/-- `append` -/
def append (round : Option DWORD) (scenario : UsageScenario) (username computer sid : WString)
    (credentials : List CCredential) : Except HRESULT (List CCredential) :=
  match initializeCredential (E.surroundings round) scenario username computer [] sid with
  | .error status => .error status
  | .ok credential => .ok (credentials ++ [credential])

/-- One round of the loop. -/
def enumerateUser (scenario : UsageScenario) (found : Found) (index : DWORD) :
    Except HRESULT Found :=
  let answer := E.getAt index
  if failed answer.1 then .error answer.1
  else
    match answer.2 with
    | none => .error E_UNEXPECTED
    | some user =>
        if failed user.getProviderID.1 then .error user.getProviderID.1
        else if user.getProviderID.2 ≠ Identity_LocalUserProvider then .ok found
        else if failed user.getSid.1 then .error user.getSid.1
        else
          let sid := cstr (user.getSid.2.getD [])
          if sid.isEmpty then .ok found
          else if !E.allocates (some index) then .error E_OUTOFMEMORY
          else
            let accounts := (E.surroundings (some index)).accounts
            match resolveLocalSid P accounts sid with
            | .error _ => .ok found
            | .ok username =>
                if sid ∈ found.seen then .ok found
                else do
                  let credentials ← append E (some index) scenario username accounts.computer sid
                    found.credentials
                  .ok { seen := sid :: found.seen, credentials }

/-- The credential of the anonymous tile. -/
def appendAnonymous (scenario : UsageScenario) (credentials : List CCredential) :
    Except HRESULT (List CCredential) :=
  if !E.allocates none then .error E_OUTOFMEMORY else append E none scenario [] [] [] credentials

/-- The indexes of the users. -/
def indexes (count : DWORD) : List DWORD := (List.range count.toNat).map UInt32.ofNat

/-- The part of `CreateCredentials` that builds a complete enumeration. -/
def enumerate (scenario : UsageScenario) : Except HRESULT (List CCredential) :=
  if failed E.getCount.1 then .error E.getCount.1
  else do
    let found ← (indexes E.getCount.2).foldlM (enumerateUser P E scenario) {}
    if failed E.getAccountOptions.1 then .error E.getAccountOptions.1
    else if E.getAccountOptions.2 &&& CPAO_EMPTY_LOCAL ≠ 0 then
      appendAnonymous E scenario found.credentials
    else .ok found.credentials

/-- The commit of an enumeration. -/
def publish (credentials : List CCredential) (p : CProvider) : CProvider :=
  { p with
    objects := p.objects ++ credentials.map fun credential => { credential }
    credentials := List.range' p.objects.length credentials.length
    credentialsReady := true }

def createCredentials (p : CProvider) : HRESULT × CProvider :=
  if p.credentialsReady then (S_OK, p)
  else if p.isRemoteSession || p.scenario ≠ .logon && p.scenario ≠ .unlockWorkstation then
    (E_NOTIMPL, p)
  else if !p.users then (S_OK, p)
  else
    match enumerate P E p.scenario with
    | .error status => (status, p)
    | .ok credentials => (S_OK, p.publish credentials)

/-- What a call returns; an output that is not written is missing. -/
structure ProviderReply where
  status : HRESULT
  count : Option DWORD := none
  credential : Option Nat := none
  deriving DecidableEq, Repr

/-- `GetCredentialCount`; `outputs` tells that no pointer is null. -/
def getCredentialCount (outputs : Bool) (p : CProvider) : ProviderReply × CProvider :=
  if !outputs then ({ status := E_INVALIDARG }, p)
  else
    let created := p.createCredentials P E
    if failed created.1 then ({ status := created.1, count := some 0 }, created.2)
    else
      ({ status := S_OK, count := some (UInt32.ofNat created.2.credentials.length) }, created.2)

/-- `GetCredentialAt`; `output` tells that the pointer is not null. -/
def getCredentialAt (index : DWORD) (output : Bool) (p : CProvider) :
    ProviderReply × CProvider :=
  if !output then ({ status := E_INVALIDARG }, p)
  else
    let created := p.createCredentials P E
    if failed created.1 then ({ status := created.1 }, created.2)
    else
      match created.2.credentials[index.toNat]? with
      | none => ({ status := E_INVALIDARG }, created.2)
      | some place => ({ status := S_OK, credential := some place }, created.2)

/-! ## Runs -/

/-- A call of LogonUI: of the provider, or of a credential it holds. -/
inductive Call
  | setUsageScenario (scenario : UsageScenario) (S : Nat → Surroundings)
  | setUserArray (users : Bool) (S : Nat → Surroundings)
  | advise (events : Bool) (S : Nat → Surroundings)
  | unAdvise (S : Nat → Surroundings)
  | getCredentialCount (outputs : Bool) (E : Enumeration)
  | getCredentialAt (index : DWORD) (output : Bool) (E : Enumeration)
  | credential (place : Nat) (callback : Callback) (S : Surroundings)

/-- The calls that end an enumeration. -/
def Call.clears : Call → Bool
  | .setUsageScenario .. => true
  | .setUserArray .. => true
  | _ => false

/-- The calls that enumerate, if it was not done yet. -/
def Call.enumeration : Call → Option Enumeration
  | .getCredentialCount true E => some E
  | .getCredentialAt _ true E => some E
  | _ => none

def perform (p : CProvider) : Call → ProviderReply × CProvider
  | .setUsageScenario scenario S =>
      let result := p.setUsageScenario scenario S
      ({ status := result.1 }, result.2)
  | .setUserArray users S =>
      let result := p.setUserArray users S
      ({ status := result.1 }, result.2)
  | .advise events S =>
      let result := p.advise events S
      ({ status := result.1 }, result.2)
  | .unAdvise S =>
      let result := p.unAdvise S
      ({ status := result.1 }, result.2)
  | .getCredentialCount outputs E => p.getCredentialCount P E outputs
  | .getCredentialAt index output E => p.getCredentialAt P E index output
  | .credential place callback S =>
      ({ status := S_OK }, { p with
        objects := p.objects.modify place fun tile => (tile.perform P S callback).2 })

/-- The provider after one call, as a step of a run. -/
def step (p : CProvider) (call : Call) : CProvider := (p.perform P call).2

/-- A provider that was just made. -/
def start (isRemoteSession : Bool) : CProvider := { isRemoteSession }

end CProvider
end WindowsFidoLogon
