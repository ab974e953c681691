import WindowsFidoLogon.Library.Text

/-!
# Local FIDO types

The records of `LocalFidoTypes.h` and `FIDOSignResponse.h`, and the Windows
error codes the program tests for.
-/

namespace WindowsFidoLogon

/-- A Windows status code. -/
abbrev DWORD : Type := UInt32

def ERROR_SUCCESS : DWORD := 0
def ERROR_FILE_NOT_FOUND : DWORD := 2
def ERROR_PATH_NOT_FOUND : DWORD := 3
def ERROR_ACCESS_DENIED : DWORD := 5
def ERROR_INVALID_DATA : DWORD := 13
def ERROR_GEN_FAILURE : DWORD := 31
def ERROR_INVALID_PARAMETER : DWORD := 87
def ERROR_NO_MORE_ITEMS : DWORD := 259
def ERROR_FILE_INVALID : DWORD := 1006
def ERROR_NOT_FOUND : DWORD := 1168
def ERROR_NO_SUCH_USER : DWORD := 1317
def ERROR_NONE_MAPPED : DWORD := 1332
def ERROR_INVALID_STATE : DWORD := 5023

def kSchemaVersion : Int := 1
def kEs256Algorithm : Int := -7
def kBrokerProtocolVersion : DWORD := 1
def kMaxBrokerMessageBytes : Nat := 64 * 1024

/-- One registered security key. -/
structure CredentialRecord where
  credentialId : Bytes
  cosePublicKey : Bytes
  algorithm : Int := kEs256Algorithm
  aaguid : Bytes
  label : Bytes
  createdAt : Bytes
  signCount : UInt32 := 0
  deriving DecidableEq, Repr

/-- One local account and its security keys. -/
structure AccountRecord where
  sid : WString
  username : WString
  enforced : Bool := false
  credentials : List CredentialRecord := []
  deriving DecidableEq, Repr

/-- The content of the credential vault. -/
structure Vault where
  schemaVersion : Int := kSchemaVersion
  machineId : Bytes
  rpId : Bytes
  accounts : List AccountRecord := []
  deriving DecidableEq, Repr

/-- `FIDO_OK` of libfido2. -/
def FIDO_OK : Int := 0

/-- One assertion as it is sent to the Broker. -/
structure FIDOAssertionData where
  credentialid : Bytes
  authenticatordata : Bytes
  signaturedata : Bytes
  userHandle : Bytes
  deriving DecidableEq, Repr

/-- The client data and the assertions signed over it. -/
structure FIDOSignResponse where
  clientdata : Bytes
  assertions : List FIDOAssertionData
  deriving DecidableEq, Repr

/-- What a verified registration yields. -/
structure RegistrationResult where
  credentialId : Bytes
  cosePublicKey : Bytes
  aaguid : Bytes
  clientDataJson : Bytes
  authenticatorData : Bytes
  attestationStatement : Bytes
  attestationFormat : Bytes
  algorithm : Int := kEs256Algorithm
  signCount : UInt32
  deriving DecidableEq, Repr

end WindowsFidoLogon
