import WindowsFidoLogon.Store.SavePoints
import WindowsFidoLogon.Store.Validity

/-!
# Sealing a vault

`Save` encodes the vault as JSON, prints it and protects the text; `Load` goes
the same way back.  `vaultFromJson_vaultToJson` is the round trip through JSON:
every field of a valid vault comes back as it was, except for the two wide
strings of an account, which come back through UTF-8.  A wide string that is not
well-formed UTF-16 becomes empty on that way.
-/

namespace WindowsFidoLogon
namespace LocalCredentialStore

open Text

variable {P : Platform}

/-! ## Text -/

/-- Well-formed UTF-16. -/
def WellFormed (P : Platform) (w : WString) : Prop :=
  w = [] ∨ ∃ b, P.wideCharToMultiByte w = some b

/-- A wide string after the way to UTF-8 and back. -/
def transcoded (P : Platform) (w : WString) : WString :=
  Convert.toWString P (Convert.toString P w)

/-- Well-formed text of at most 256 units comes back as it was. -/
theorem transcoded_of_wellFormed (hT : P.Transcodes) {w : WString} (hLength : w.length ≤ 256)
    (hw : WellFormed P w) : transcoded P w = w := by
  rcases hw with rfl | ⟨b, hb⟩
  · rfl
  · obtain ⟨hLower, hUpper⟩ := hT.lengths _ _ hb
    have hBack : P.multiByteToWideChar b = some w := (hT.inverse _ _).mpr hb
    cases w with
    | nil => rfl
    | cons c rest =>
        have hBytes : b ≠ [] := by
          rintro rfl
          simp at hLower
        have hFits : ¬ Convert.intMax < rest.length + 1 := by
          simp only [List.length_cons] at hLength
          unfold Convert.intMax
          omega
        have hFits' : ¬ Convert.intMax < b.length := by
          unfold Convert.intMax
          omega
        simp [transcoded, Convert.toString, Convert.toWString, hFits, hFits', hBytes, hb, hBack]

/-- Other text becomes empty. -/
theorem transcoded_of_not_wellFormed {w : WString} (hw : ¬ WellFormed P w) :
    transcoded P w = [] := by
  have hNone : P.wideCharToMultiByte w = none := by
    cases hb : P.wideCharToMultiByte w with
    | none => rfl
    | some b => exact absurd (.inr ⟨b, hb⟩) hw
  have hEmpty : Convert.toString P w = [] := by
    simp [Convert.toString, hNone]
  rw [transcoded, hEmpty]
  rfl

/-! ## The round trip through JSON -/

/-- An account after the way through its JSON text. -/
def transcodedAccount (P : Platform) (account : AccountRecord) : AccountRecord :=
  { account with
    sid := transcoded P account.sid
    username := transcoded P account.username }

/-- A vault after the way through its JSON text. -/
def transcodedVault (P : Platform) (v : Vault) : Vault :=
  { v with accounts := v.accounts.map (transcodedAccount P) }

theorem getUnsigned_toNat (n : UInt32) : (Json.int n.toNat).getUnsigned = .ok n := by
  have hRange : ((n.toNat : Int) % 2 ^ 32).toNat = n.toNat := by
    have := n.toNat_lt
    omega
  show Except.ok (UInt32.ofNat ((n.toNat : Int) % 2 ^ 32).toNat) = _
  rw [hRange, UInt32.ofNat_toNat]

theorem credentialFromJson_credentialToJson {c : CredentialRecord}
    (h : c.algorithm = kEs256Algorithm) : credentialFromJson (credentialToJson c) = .ok c := by
  have hAlgorithm : (Json.int c.algorithm).getInt = .ok c.algorithm := by
    rw [h]
    rfl
  show (do
    let algorithm ← (Json.int c.algorithm).getInt
    let signCount ← (Json.int c.signCount.toNat).getUnsigned
    return { c with algorithm, signCount }) = Except.ok c
  rw [hAlgorithm, getUnsigned_toNat]
  rfl

/-- Decoding undoes encoding on a whole list. -/
theorem mapM_map_ok {α β γ : Type} {encode : α → γ} {decode : γ → Except Bytes β} {f : α → β}
    {xs : List α} (h : ∀ x ∈ xs, decode (encode x) = .ok (f x)) :
    (xs.map encode).mapM decode = .ok (xs.map f) := by
  induction xs with
  | nil => rfl
  | cons x xs ih =>
      have hRest := ih fun y hy => h y (List.mem_cons_of_mem _ hy)
      rw [List.map_cons, List.mapM_cons, h x List.mem_cons_self, hRest]
      rfl

theorem accountFromJson_accountToJson {a : AccountRecord}
    (h : ∀ c ∈ a.credentials, c.algorithm = kEs256Algorithm) :
    accountFromJson P (accountToJson P a) = .ok (transcodedAccount P a) := by
  have hCredentials : (a.credentials.map credentialToJson).mapM credentialFromJson =
      .ok (a.credentials.map id) :=
    mapM_map_ok fun c hc => credentialFromJson_credentialToJson (h c hc)
  show (do
    let credentials ← (a.credentials.map credentialToJson).mapM credentialFromJson
    return { transcodedAccount P a with credentials }) = Except.ok _
  rw [hCredentials, List.map_id]
  rfl

/-- Reading back what a valid vault was encoded as. -/
theorem vaultFromJson_vaultToJson {v : Vault} (hv : isVaultValid P v = true) :
    vaultFromJson P (vaultToJson P v) = .ok (transcodedVault P v) := by
  have hValid := isVaultValid_iff.mp hv
  have hAccounts : (v.accounts.map (accountToJson P)).mapM (accountFromJson P) =
      .ok (v.accounts.map (transcodedAccount P)) :=
    mapM_map_ok fun a ha => accountFromJson_accountToJson fun c hc =>
      ((hValid.accounts a ha).credentials c hc).algorithm
  show (do
    let schemaVersion ← (Json.int v.schemaVersion).getInt
    if schemaVersion ≠ kSchemaVersion then
      throw (text "Unsupported credential vault schema")
    let accounts ← (v.accounts.map (accountToJson P)).mapM (accountFromJson P)
    return { v with schemaVersion, accounts }) = Except.ok _
  rw [hAccounts, hValid.schema]
  show Except.ok { v with
    schemaVersion := kSchemaVersion
    accounts := v.accounts.map (transcodedAccount P) } = _
  rw [← hValid.schema]
  rfl

/-! ## Printed and protected -/

theorem canonical_credentialToJson (c : CredentialRecord) :
    (credentialToJson c).canonical = true := rfl

theorem canonical_accountToJson (a : AccountRecord) : (accountToJson P a).canonical = true := by
  have hCredentials : Json.canonicalList (a.credentials.map credentialToJson) = true := by
    rw [Json.canonicalList_iff]
    intro j hj
    obtain ⟨c, _, rfl⟩ := List.mem_map.mp hj
    exact canonical_credentialToJson c
  show (Json.canonicalList _ && true) = true
  rw [hCredentials]
  rfl

/-- The encoding of a vault is in the parser's own form. -/
theorem canonical_vaultToJson (v : Vault) : (vaultToJson P v).canonical = true := by
  have hAccounts : Json.canonicalList (v.accounts.map (accountToJson P)) = true := by
    rw [Json.canonicalList_iff]
    intro j hj
    obtain ⟨a, _, rfl⟩ := List.mem_map.mp hj
    exact canonical_accountToJson a
  show (Json.canonicalList _ && true) = true
  rw [hAccounts]
  rfl

/-- A file that could be opened and parsed is refused only for what is in the vault. -/
theorem vaultOf_of_parsed {content plaintext : Bytes} {v : Vault}
    (hOpened : unprotectFile P content = .ok plaintext)
    (hParsed : (P.parse plaintext >>= vaultFromJson P) = .ok v) :
    vaultOf P content = if isVaultValid P v then .ok v else .error ERROR_INVALID_DATA := by
  have hBind : ∀ f : Bytes → Except DWORD Vault, (Except.ok plaintext >>= f) = f plaintext :=
    fun _ => rfl
  unfold vaultOf
  rw [hOpened, hBind, hParsed]

/-- A sealed file of acceptable size is read as the transcoded vault, if that is
still valid. -/
theorem vaultOf_seal (hProtects : P.Protects) (hParses : P.ParsesDumps) {v : Vault}
    (hv : isVaultValid P v = true) {salt : Nat} {plaintext : Bytes}
    (hDump : P.dump (vaultToJson P v) = .ok plaintext) :
    vaultOf P (P.cryptProtectData salt plaintext) =
      if (P.cryptProtectData salt plaintext).length > maximumFileBytes then
        .error ERROR_FILE_INVALID
      else if isVaultValid P (transcodedVault P v) then .ok (transcodedVault P v)
      else .error ERROR_INVALID_DATA := by
  have hNonempty : (P.cryptProtectData salt plaintext).length ≠ 0 := by
    simpa using hProtects.nonempty salt plaintext
  have hParse : P.parse plaintext = .ok (vaultToJson P v) :=
    hParses _ _ (canonical_vaultToJson v) hDump
  by_cases hSize : (P.cryptProtectData salt plaintext).length > maximumFileBytes
  · unfold vaultOf unprotectFile
    rw [if_pos (.inr hSize), if_pos hSize]
    rfl
  · have hOpened : unprotectFile P (P.cryptProtectData salt plaintext) = .ok plaintext := by
      unfold unprotectFile
      rw [if_neg (by tauto), hProtects.unprotect]
    have hParsed : (P.parse plaintext >>= vaultFromJson P) = .ok (transcodedVault P v) := by
      rw [hParse]
      exact vaultFromJson_vaultToJson hv
    rw [if_neg hSize]
    exact vaultOf_of_parsed hOpened hParsed

/-- A vault with well-formed text comes back as it was. -/
theorem transcodedVault_of_wellFormed (hT : P.Transcodes) {v : Vault}
    (hv : isVaultValid P v = true)
    (hText : ∀ a ∈ v.accounts, WellFormed P a.sid ∧ WellFormed P a.username) :
    transcodedVault P v = v := by
  have hValid := isVaultValid_iff.mp hv
  have hAccount : ∀ a ∈ v.accounts, transcodedAccount P a = id a := by
    intro a ha
    have hSid := (hValid.accounts a ha).sid_length
    have hName := (hValid.accounts a ha).username_length
    unfold transcodedAccount
    rw [transcoded_of_wellFormed hT (by omega) (hText a ha).1,
      transcoded_of_wellFormed hT hName (hText a ha).2]
    rfl
  have hAccounts : v.accounts.map (transcodedAccount P) = v.accounts :=
    (List.map_congr_left hAccount).trans (List.map_id _)
  unfold transcodedVault
  rw [hAccounts]

/-- A valid vault is still valid after the way through its text exactly if its SIDs
are well-formed. -/
theorem isVaultValid_transcodedVault_iff (hT : P.Transcodes) {v : Vault}
    (hv : isVaultValid P v = true) :
    isVaultValid P (transcodedVault P v) = true ↔ ∀ a ∈ v.accounts, WellFormed P a.sid := by
  have hValid := isVaultValid_iff.mp hv
  constructor
  · intro h a ha
    have hBack := (isVaultValid_iff.mp h).accounts (transcodedAccount P a)
      (List.mem_map_of_mem ha)
    by_contra hNot
    exact hBack.sid_ne (transcoded_of_not_wellFormed hNot)
  · intro hText
    have hSid : ∀ a ∈ v.accounts, transcoded P a.sid = a.sid := fun a ha =>
      transcoded_of_wellFormed hT (by have := (hValid.accounts a ha).sid_length; omega) (hText a ha)
    have hName : ∀ a ∈ v.accounts, (transcoded P a.username).length ≤ 256 := by
      intro a ha
      have hLength := (hValid.accounts a ha).username_length
      by_cases hw : WellFormed P a.username
      · rw [transcoded_of_wellFormed hT hLength hw]
        exact hLength
      · rw [transcoded_of_not_wellFormed hw]
        simp
    refine isVaultValid_iff.mpr
      { schema := hValid.schema
        machineId_length := hValid.machineId_length
        rpId := hValid.rpId
        accounts_length := by simpa [transcodedVault] using hValid.accounts_length
        machineId_hex := hValid.machineId_hex
        accounts := ?_
        sids_nodup := ?_ }
    · intro b hb
      obtain ⟨a, ha, rfl⟩ := List.mem_map.mp hb
      have hAccount := hValid.accounts a ha
      exact
        { sid_ne := by simpa [transcodedAccount, hSid a ha] using hAccount.sid_ne
          sid_length := by simpa [transcodedAccount, hSid a ha] using hAccount.sid_length
          username_length := hName a ha
          credentials_length := hAccount.credentials_length
          enforced := hAccount.enforced
          stringSid := by simpa [transcodedAccount, hSid a ha] using hAccount.stringSid
          credentials := hAccount.credentials
          ids_nodup := hAccount.ids_nodup }
    · have hSids : (transcodedVault P v).accounts.map (fun b => b.sid.map towupper) =
          v.accounts.map fun a => a.sid.map towupper := by
        simp only [transcodedVault, List.map_map]
        exact List.map_congr_left fun a ha => by simp [transcodedAccount, hSid a ha]
      rw [hSids]
      exact hValid.sids_nodup

end LocalCredentialStore
end WindowsFidoLogon
