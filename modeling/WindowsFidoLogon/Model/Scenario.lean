import WindowsFidoLogon.Model.Types

/-!
# Fields, modes and texts of the sign-in tile

`scenario.h`, `Mode.h`, the texts of `Localization.cpp` that a credential shows,
and the `HRESULT` values it returns.
-/

namespace WindowsFidoLogon

open Text

/-! ## Results -/

/-- An `HRESULT`; the highest bit marks a failure. -/
abbrev HRESULT : Type := UInt32

/-- An `NTSTATUS` -/
abbrev NTSTATUS : Type := UInt32

def S_OK : HRESULT := 0
def E_NOTIMPL : HRESULT := 0x80004001
def E_FAIL : HRESULT := 0x80004005
def E_UNEXPECTED : HRESULT := 0x8000FFFF
def E_ACCESSDENIED : HRESULT := 0x80070005
def E_OUTOFMEMORY : HRESULT := 0x8007000E
def E_INVALIDARG : HRESULT := 0x80070057

def ERROR_ARITHMETIC_OVERFLOW : DWORD := 534
def ERROR_CANCELLED : DWORD := 1223
def ERROR_DEVICE_NOT_AVAILABLE : DWORD := 4319

/-- `FAILED(status)` -/
def failed (status : HRESULT) : Bool := 0x80000000 ≤ status

/-- `HRESULT_FROM_WIN32` -/
def hresultFromWin32 (error : DWORD) : HRESULT :=
  if error = 0 ∨ 0x80000000 ≤ error then error else (error &&& 0xFFFF) ||| 0x80070000

def STATUS_SUCCESS : NTSTATUS := 0
def STATUS_WRONG_PASSWORD : NTSTATUS := 0xC000006A
def STATUS_PASSWORD_EXPIRED : NTSTATUS := 0xC0000071
def STATUS_PASSWORD_MUST_CHANGE : NTSTATUS := 0xC0000224

/-! ## Fields -/

/-- `FIELD_ID` -/
inductive FieldId
  | logo
  | largeText
  | smallText
  | username
  | password
  | fidoPin
  | newPass1
  | newPass2
  | submitButton
  | providerLabel
  deriving DecidableEq, Repr

/-- The fields in the order of their indices. -/
def FieldId.all : List FieldId :=
  [.logo, .largeText, .smallText, .username, .password, .fidoPin, .newPass1, .newPass2,
    .submitButton, .providerLabel]

/-- The field of an index, below `FID_NUM_FIELDS`. -/
def FieldId.ofIndex (index : DWORD) : Option FieldId :=
  FieldId.all[index.toNat]?

/-- Whether `s_rgScenarioCredProvFieldDescriptors` gives the field the type
`CPFT_PASSWORD_TEXT`. -/
def FieldId.isPasswordText : FieldId → Bool
  | .password | .fidoPin | .newPass1 | .newPass2 => true
  | _ => false

/-- `CREDENTIAL_PROVIDER_FIELD_STATE` -/
inductive FieldState
  | hidden
  | displayInSelectedTile
  | displayInBoth
  deriving DecidableEq, Repr

/-- `FIELD_STATE_PAIR` -/
structure FieldStatePair where
  cpfs : FieldState
  /-- `CPFIS_FOCUSED`, else `CPFIS_NONE` -/
  focused : Bool := false
  deriving DecidableEq, Repr

/-! ## Modes -/

/-- What a tile asks for. -/
inductive Mode
  | usernamePassword
  | fido
  | changePassword
  deriving DecidableEq, Repr

def s_rgScenarioUsernamePassword : FieldId → FieldStatePair
  | .logo => ⟨.displayInBoth, false⟩
  | .smallText | .password | .submitButton => ⟨.displayInSelectedTile, false⟩
  | .username => ⟨.displayInSelectedTile, true⟩
  | .largeText | .fidoPin | .newPass1 | .newPass2 | .providerLabel => ⟨.hidden, false⟩

def s_rgScenarioFido : FieldId → FieldStatePair
  | .logo => ⟨.displayInBoth, false⟩
  | .smallText | .submitButton => ⟨.displayInSelectedTile, false⟩
  | .fidoPin => ⟨.displayInSelectedTile, true⟩
  | .largeText | .username | .password | .newPass1 | .newPass2 | .providerLabel =>
      ⟨.hidden, false⟩

def s_rgScenarioChangePassword : FieldId → FieldStatePair
  | .logo => ⟨.displayInBoth, false⟩
  | .smallText | .newPass2 | .submitButton => ⟨.displayInSelectedTile, false⟩
  | .newPass1 => ⟨.displayInSelectedTile, true⟩
  | .largeText | .username | .password | .fidoPin | .providerLabel => ⟨.hidden, false⟩

/-- The table `SetMode` takes the field states from. -/
def Mode.scenario : Mode → FieldId → FieldStatePair
  | .usernamePassword => s_rgScenarioUsernamePassword
  | .fido => s_rgScenarioFido
  | .changePassword => s_rgScenarioChangePassword

/-! ## Texts -/

inductive UiLanguage
  | english
  | simplifiedChinese
  deriving DecidableEq, Repr

/-- The entries of `UiTextId` that a credential shows. -/
inductive UiTextId
  | continueButton
  | verifyKeyButton
  | changePasswordButton
  | selectUserAndPasswordPrompt
  | localAccountsOnly
  | signInVerificationUnavailable
  | mfaPolicyUnavailable
  | preparingWindowsSignIn
  | noSecurityKeyDetected
  | enterPinAndTouch
  | touchKey
  | keyVerificationFailed
  | keyVerificationIncomplete
  | keyVerified
  | passwordUpdateFailed
  | passwordMustChange
  | passwordVerificationFailed
  | signInFailed
  | enterPasswordPrompt
  | providerLabel
  deriving DecidableEq, Repr

/-- `i18n::kEnUs` -/
def kEnUs : UiTextId → String
  | .continueButton => "Continue"
  | .verifyKeyButton => "Verify security key"
  | .changePasswordButton => "Change password"
  | .selectUserAndPasswordPrompt => "Enter your local username and password."
  | .localAccountsOnly => "Local accounts only."
  | .signInVerificationUnavailable => "Unable to start sign-in verification."
  | .mfaPolicyUnavailable => "Unable to verify MFA policy."
  | .preparingWindowsSignIn => "Preparing Windows sign-in…"
  | .noSecurityKeyDetected => "No compatible USB security key was detected."
  | .enterPinAndTouch => "Enter the security key PIN."
  | .touchKey => "Touch your security key."
  | .keyVerificationFailed => "Security key verification failed."
  | .keyVerificationIncomplete => "Security-key verification could not be completed."
  | .keyVerified => "Signing in…"
  | .passwordUpdateFailed => "Unable to complete the password change."
  | .passwordMustChange => "Your Windows password must be changed."
  | .passwordVerificationFailed => "Password verification failed."
  | .signInFailed => "Sign-in failed."
  | .enterPasswordPrompt => "Enter your Windows password."
  | .providerLabel => "Password and security key"

/-- `i18n::kZhCn` -/
def kZhCn : UiTextId → String
  | .continueButton => "继续"
  | .verifyKeyButton => "验证安全密钥"
  | .changePasswordButton => "修改密码"
  | .selectUserAndPasswordPrompt => "请输入本地用户名和密码。"
  | .localAccountsOnly => "仅支持本地账户。"
  | .signInVerificationUnavailable => "无法启动登录验证。"
  | .mfaPolicyUnavailable => "无法验证 MFA 策略。"
  | .preparingWindowsSignIn => "正在准备 Windows 登录…"
  | .noSecurityKeyDetected => "未检测到兼容的 USB 安全密钥。"
  | .enterPinAndTouch => "请输入安全密钥 PIN。"
  | .touchKey => "请触摸安全密钥。"
  | .keyVerificationFailed => "安全密钥验证失败。"
  | .keyVerificationIncomplete => "安全密钥验证未能完成。"
  | .keyVerified => "正在登录…"
  | .passwordUpdateFailed => "无法完成密码修改。"
  | .passwordMustChange => "请修改 Windows 密码。"
  | .passwordVerificationFailed => "密码验证失败。"
  | .signInFailed => "登录失败。"
  | .enterPasswordPrompt => "请输入 Windows 密码。"
  | .providerLabel => "密码和安全密钥"

/-- `UiText`; every character of the tables is one UTF-16 code unit. -/
def uiText (language : UiLanguage) (id : UiTextId) : WString :=
  match language with
  | .english => wtext (kEnUs id)
  | .simplifiedChinese => wtext (kZhCn id)

end WindowsFidoLogon
