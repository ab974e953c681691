import WindowsFidoLogon.Library.Json
import WindowsFidoLogon.Model.Types

/-!
# The code the program links against

`Platform` collects, as parameters, the functions of Windows, DPAPI,
`nlohmann::json`, libcbor and libfido2 that the program calls and whose result
depends on their arguments alone.  What may vary from call to call (faults, the
clock, random bytes, the account database) is in `Environment`, not here.

The documented behaviour that results rely on is stated as separate contracts,
so that each theorem names the ones it needs.
-/

namespace WindowsFidoLogon

open Text

/-- A decoded CBOR item, as far as the program looks at it.  A byte string has the
bytes that its handle and its length give, if the handle is not null; one of
indefinite length has the length 0. -/
inductive CborItem
  | uint (value : Nat)
  | negint (value : Nat)
  | bytestring (handle : Option Bytes)
  | map (pairs : List (CborItem × CborItem))
  | other
  deriving Inhabited

/-- The inputs of one `fido_assert_verify`. -/
structure AssertInput where
  clientData : Bytes
  rpId : Bytes
  authData : Bytes
  signature : Bytes
  publicKey : Bytes
  deriving DecidableEq, Repr

/-- A `fido_cred_t` after `fido_cred_set_attobj` accepted its argument. -/
structure ParsedCredential where
  format : Option Bytes
  x5cLength : Nat
  verify : Int
  verifySelf : Int
  authDataRaw : Option Bytes
  id : Option Bytes

/-- The `fido_cred_set_*` steps of a registration. -/
inductive CredentialOperation
  | setType
  | setRp
  | setClientData
  | requireUserVerification
  | decodeAttestation

/-- How far the `fido_cred_set_*` sequence of a registration got. -/
inductive CredentialSetup
  | outOfMemory
  | failed (operation : CredentialOperation) (status : Int)
  | parsed (credential : ParsedCredential)

/-- The functions outside `src/` that are functions of their arguments. -/
structure Platform where
  /-- `MultiByteToWideChar(CP_UTF8, MB_ERR_INVALID_CHARS, ...)` -/
  multiByteToWideChar : Bytes → Option WString
  /-- `WideCharToMultiByte(CP_UTF8, WC_ERR_INVALID_CHARS, ...)` -/
  wideCharToMultiByte : WString → Option Bytes
  /-- `json::parse`, with the `what()` text of its `parse_error` -/
  parse : Bytes → Except Bytes Json
  /-- `json::dump()`, with the `what()` text of its `type_error` -/
  dump : Json → Except Bytes Bytes
  /-- `CryptProtectData`; the first argument stands for its random salt -/
  cryptProtectData : Nat → Bytes → Bytes
  /-- `CryptUnprotectData` -/
  cryptUnprotectData : Bytes → Except DWORD Bytes
  /-- `ConvertStringSidToSidW` and `IsValidSid` on a C string -/
  isStringSid : WString → Bool
  /-- The SHA-256 digest that BCrypt computes, if it does -/
  sha256 : Bytes → Option Bytes
  /-- `cbor_load`: the first item and the number of bytes it takes -/
  cborLoad : Bytes → Option (CborItem × Nat)
  /-- `fido_assert_set_*`, `es256_pk_from_ptr` and `fido_assert_verify`;
  `none` when a handle cannot be allocated -/
  fidoAssertVerify : AssertInput → Option Int
  /-- `fido_cred_new` and `fido_cred_set_*` for an RP ID, client data and an
  attestation object -/
  fidoCredSetup : Bytes → Bytes → Bytes → CredentialSetup
  /-- `fido_strerr` -/
  fidoStrerr : Int → Bytes
  /-- `ExpandEnvironmentStringsW` on a C string -/
  expandEnvironmentStrings : WString → Option WString
  /-- `GetFullPathNameW` on a C string -/
  getFullPathName : WString → Option WString

namespace Platform

variable (P : Platform)

/-- The two text conversions accept well-formed text only, undo each other on
it, and write one to three bytes for each unit. -/
structure Transcodes : Prop where
  inverse : ∀ b w, P.multiByteToWideChar b = some w ↔ P.wideCharToMultiByte w = some b
  utf8 : ∀ w b, P.wideCharToMultiByte w = some b → validUtf8 b = true
  lengths : ∀ w b, P.wideCharToMultiByte w = some b → w.length ≤ b.length ∧ b.length ≤ 3 * w.length

/-- DPAPI gives back what was protected, and its blobs are never empty. -/
structure Protects : Prop where
  unprotect : ∀ salt plaintext,
    P.cryptUnprotectData (P.cryptProtectData salt plaintext) = .ok plaintext
  nonempty : ∀ salt plaintext, P.cryptProtectData salt plaintext ≠ []

/-- Parsing undoes printing on values in the parser's own form. -/
def ParsesDumps : Prop :=
  ∀ j b, j.canonical = true → P.dump j = .ok b → P.parse b = .ok j

/-- Strict UTF-8 on both sides of the JSON library: the parser only returns
UTF-8 strings, and the printer refuses nothing else.  Its own error text, and
that of libfido2, are ASCII. -/
structure StrictUtf8 : Prop where
  parse_strings : ∀ b j, P.parse b = .ok j → j.allStrings validUtf8 = true
  dump_ok : ∀ j, j.allStrings validUtf8 = true → ∃ b, P.dump j = .ok b
  dump_strict : ∀ j b, P.dump j = .ok b → j.allStrings validUtf8 = true
  dump_error : ∀ j e, P.dump j = .error e → validUtf8 e = true
  strerr : ∀ status, validUtf8 (P.fidoStrerr status) = true

end Platform

end WindowsFidoLogon
