import WindowsFidoLogon.Library.Block
import WindowsFidoLogon.Library.ByteOrder
import WindowsFidoLogon.Model.CCredential

/-!
# Packed authentication blobs

`helpers.cpp`, with the structures of `ntsecapi.h` as they lie in memory on x64.
A block from `CoTaskMemAlloc` holds arbitrary bytes; the packers write into it at
offsets, and a write outside of it is the result `none`.
-/

namespace WindowsFidoLogon
namespace Helpers

open ByteOrder Text

/-! ## Strings -/

/-- The code units of a string as they lie in memory. -/
def wideBytes (units : WString) : Bytes :=
  units.flatMap fun unit => littleEndian 2 unit.toNat

/-- The code units that bytes hold. -/
def ofWideBytes : Bytes → WString
  | low :: high :: rest => UInt16.ofNat (ofLittleEndian [low, high]) :: ofWideBytes rest
  | _ => []

/-- A `UNICODE_STRING` that refers to a string.  Its `Length` and its `MaximumLength`
are the length in bytes, which fits a `USHORT`. -/
structure UnicodeString where
  units : WString
  fits : 2 * units.length ≤ 65535

/-- `Length` -/
def UnicodeString.length (s : UnicodeString) : Nat := 2 * s.units.length

/-- `UnicodeStringInitWithString`; `none` is a null pointer. -/
def unicodeStringInitWithString (pwz : Option WString) : Except HRESULT UnicodeString :=
  match pwz with
  | none => .error E_INVALIDARG
  | some pwz =>
      let lenString := (cstr pwz).length
      if lenString > 65535 then .error (hresultFromWin32 ERROR_ARITHMETIC_OVERFLOW)
      else if h : 2 * lenString ≤ 65535 then .ok ⟨cstr pwz, h⟩
      else .error (hresultFromWin32 ERROR_ARITHMETIC_OVERFLOW)

/-! ## The structures -/

/-- `KERB_INTERACTIVE_UNLOCK_LOGON` -/
structure KerbInteractiveUnlockLogon where
  messageType : UInt32
  logonDomainName : UnicodeString
  userName : UnicodeString
  password : UnicodeString
  logonId : UInt64

/-- `KERB_CHANGEPASSWORD_REQUEST` -/
structure KerbChangePasswordRequest where
  messageType : UInt32
  domainName : UnicodeString
  accountName : UnicodeString
  oldPassword : UnicodeString
  newPassword : UnicodeString
  impersonating : UInt8

/-- `KerbChangePasswordMessage` -/
def kerbChangePasswordMessage : UInt32 := 7

/-- The `KERB_LOGON_SUBMIT_TYPE` of a message. -/
def submitType : LogonMessage → UInt32
  | .interactiveLogon => 2
  | .workstationUnlockLogon => 7
  | .unspecified => 0

/-- `KerbInteractiveUnlockLogonInit` -/
def kerbInteractiveUnlockLogonInit (pwzDomain pwzUsername pwzPassword : Option WString)
    (cpus : UsageScenario) : Except HRESULT KerbInteractiveUnlockLogon := do
  let logonDomainName ← unicodeStringInitWithString pwzDomain
  let userName ← unicodeStringInitWithString pwzUsername
  let password ← unicodeStringInitWithString pwzPassword
  let message ← Tile.messageType cpus
  return { messageType := submitType message, logonDomainName, userName, password, logonId := 0 }

/-- The request of `CCredential::PackPasswordChange`. -/
def passwordChangeRequest (pwzDomain pwzUsername pwzPassword pwzNewPassword : Option WString) :
    Except HRESULT KerbChangePasswordRequest := do
  let domainName ← unicodeStringInitWithString pwzDomain
  let accountName ← unicodeStringInitWithString pwzUsername
  let oldPassword ← unicodeStringInitWithString pwzPassword
  let newPassword ← unicodeStringInitWithString pwzNewPassword
  return { messageType := kerbChangePasswordMessage, domainName, accountName, oldPassword
           newPassword, impersonating := 0 }

/-! ## Packing -/

/-- A block of `CoTaskMemAlloc`, with what the memory held before. -/
structure Allocation (size : Nat) where
  address : UInt64
  content : Bytes
  length_content : content.length = size

/-- `_UnicodeStringPackedUnicodeStringCopy` into the block at an address: the structure is
at `pus`, the characters go to `cursor`. -/
def unicodeStringPackedUnicodeStringCopy (address : UInt64) (rus : UnicodeString)
    (cursor pus : Nat) (block : Bytes) : Option Bytes := do
  let block ← Block.write block pus (littleEndian 2 rus.length)
  let block ← Block.write block (pus + 2) (littleEndian 2 rus.length)
  let block ← Block.write block (pus + 8) (littleEndian 8 (address.toNat + cursor))
  Block.write block cursor (wideBytes rus.units)

/-- One string after the other: each is copied, its buffer made an offset, and the cursor
moved over its characters. -/
def packStrings (address : UInt64) : List (Nat × UnicodeString) → Nat → Bytes → Option Bytes
  | [], _, block => some block
  | (pus, rus) :: rest, cursor, block => do
      let block ← unicodeStringPackedUnicodeStringCopy address rus cursor pus block
      let block ← Block.write block (pus + 8) (littleEndian 8 cursor)
      packStrings address rest (cursor + rus.length) block

/-- The strings with the offsets of their structures. -/
def KerbInteractiveUnlockLogon.strings (logon : KerbInteractiveUnlockLogon) :
    List (Nat × UnicodeString) :=
  [(8, logon.logonDomainName), (24, logon.userName), (40, logon.password)]

def KerbChangePasswordRequest.strings (request : KerbChangePasswordRequest) :
    List (Nat × UnicodeString) :=
  [(8, request.domainName), (24, request.accountName), (40, request.oldPassword),
    (56, request.newPassword)]

/-- `sizeof(KERB_INTERACTIVE_UNLOCK_LOGON)` -/
def sizeofLogon : Nat := 64

/-- `sizeof(KERB_CHANGEPASSWORD_REQUEST)` -/
def sizeofChangePassword : Nat := 80

/-- The structure and its strings, in the `DWORD` that is allocated. -/
def packedSize (sizeof : Nat) (strings : List (Nat × UnicodeString)) : DWORD :=
  UInt32.ofNat (sizeof + (strings.map fun string => string.2.length).sum)

/-- `KerbInteractiveUnlockLogonPack`: the blob and its size. -/
def kerbInteractiveUnlockLogonPack
    (coTaskMemAlloc : (size : DWORD) → Option (Allocation size.toNat))
    (logon : KerbInteractiveUnlockLogon) : Option (Except HRESULT (Bytes × DWORD)) :=
  let cb := packedSize sizeofLogon logon.strings
  match coTaskMemAlloc cb with
  | none => some (.error E_OUTOFMEMORY)
  | some memory => do
      let block ← Block.write memory.content 56 (List.replicate 8 0)
      let block ← Block.write block 0 (littleEndian 4 logon.messageType.toNat)
      let block ← packStrings memory.address logon.strings sizeofLogon block
      some (.ok (block, cb))

/-- `KerbChangePasswordPack` -/
def kerbChangePasswordPack
    (coTaskMemAlloc : (size : DWORD) → Option (Allocation size.toNat))
    (request : KerbChangePasswordRequest) : Option (Except HRESULT (Bytes × DWORD)) :=
  let cb := packedSize sizeofChangePassword request.strings
  match coTaskMemAlloc cb with
  | none => some (.error E_OUTOFMEMORY)
  | some memory => do
      let block ← Block.write memory.content 0 (littleEndian 4 request.messageType.toNat)
      let block ← packStrings memory.address request.strings sizeofChangePassword block
      some (.ok (block, cb))

/-! ## Unpacking -/

/-- A `UNICODE_STRING` of a blob, with the string at the offset that its buffer is. -/
structure UnpackedString where
  length : Nat
  maximumLength : Nat
  buffer : Nat
  units : WString
  deriving DecidableEq, Repr

def unpackNumber (blob : Bytes) (offset count : Nat) : Option Nat :=
  (Block.read blob offset count).map ofLittleEndian

def unpackString (blob : Bytes) (pus : Nat) : Option UnpackedString := do
  let length ← unpackNumber blob pus 2
  let maximumLength ← unpackNumber blob (pus + 2) 2
  let buffer ← unpackNumber blob (pus + 8) 8
  let content ← Block.read blob buffer length
  return { length, maximumLength, buffer, units := ofWideBytes content }

end Helpers
end WindowsFidoLogon
