import WindowsFidoLogon.Model.Platform

/-!
# Local Windows accounts

`LocalAccount.cpp` over one snapshot of the account database.  Windows
functions take C strings, so they see a name or a SID up to its first NUL.
-/

namespace WindowsFidoLogon
namespace LocalAccount

open Text

/-- What `LookupAccountNameW` or `LookupAccountSidW` found. -/
structure AccountLookup where
  domain : WString
  isUser : Bool
  /-- `ConvertSidToStringSidW` of the SID found by name -/
  sid : Except DWORD WString
  /-- the name found by SID -/
  name : WString

/-- The answers of the account database at one moment. -/
structure AccountDatabase where
  /-- `GetComputerNameW` -/
  computerName : Except DWORD WString
  /-- `NetUserGetInfo` -/
  netUserGetInfo : WString → Except DWORD Unit
  /-- `LookupAccountNameW` -/
  lookupAccountName : WString → Except DWORD AccountLookup
  /-- `LookupAccountSidW` -/
  lookupAccountSid : WString → Except DWORD AccountLookup
  /-- `LogonUserW` for a user, a domain and a password -/
  logonUser : WString → WString → WString → Except DWORD Unit

/-- `ComputerName()`, empty when it cannot be read. -/
def AccountDatabase.computer (db : AccountDatabase) : WString :=
  match db.computerName with
  | .ok name => name
  | .error _ => []

/-- The three results of `ResolveLocalAccount`. -/
structure ResolvedAccount where
  username : WString
  computerName : WString
  sidString : WString
  deriving DecidableEq, Repr

/-- The part before the first backslash, if there is one, and the rest. -/
def splitDomain (input : WString) : Option WString × WString :=
  match input.span (· ≠ 92) with
  | (domain, _ :: candidate) => (some domain, candidate)
  | (candidate, []) => (none, candidate)

/-- The account checks of `ResolveLocalAccount` on a name without a domain. -/
def resolveCandidate (db : AccountDatabase) (candidate : WString) :
    Except DWORD ResolvedAccount :=
  if 64 ∈ candidate then .error ERROR_NO_SUCH_USER
  else do
    db.netUserGetInfo (cstr candidate)
    let found ← db.lookupAccountName (cstr (db.computer ++ 92 :: candidate))
    if !wcsicmpEq found.domain db.computer || !found.isUser then
      .error ERROR_NO_SUCH_USER
    else do
      let sidString ← found.sid
      .ok { username := candidate, computerName := db.computer, sidString }

def resolveLocalAccount (db : AccountDatabase) (input : WString) :
    Except DWORD ResolvedAccount :=
  if input.isEmpty || db.computer.isEmpty then .error ERROR_INVALID_PARAMETER
  else
    match splitDomain input with
    | (some domain, candidate) =>
        if !wcsicmpEq domain (wtext ".") && !wcsicmpEq domain db.computer then
          .error ERROR_NO_SUCH_USER
        else resolveCandidate db candidate
    | (none, candidate) => resolveCandidate db candidate

/-- `ResolveLocalSid`: the current name of a local user. -/
def resolveLocalSid (P : Platform) (db : AccountDatabase) (sidString : WString) :
    Except DWORD WString :=
  match db.computerName with
  | .error e => .error e
  | .ok computer =>
      if computer.isEmpty then .error ERROR_INVALID_PARAMETER
      else if !P.isStringSid (cstr sidString) then .error ERROR_INVALID_PARAMETER
      else
        match db.lookupAccountSid (cstr sidString) with
        | .error e => .error e
        | .ok found =>
            if !found.isUser || !wcsicmpEq found.domain computer then .error ERROR_NO_SUCH_USER
            else .ok found.name

def isLocalSystemSid (sidString : WString) : Bool :=
  wcsicmpEq sidString (wtext "S-1-5-18")

/-- `ValidateLocalPassword`, with the Windows error of a failed logon. -/
def validateLocalPassword (db : AccountDatabase) (username password : WString) :
    Except DWORD Unit :=
  db.logonUser (cstr username) (cstr db.computer) (cstr password)

end LocalAccount
end WindowsFidoLogon
