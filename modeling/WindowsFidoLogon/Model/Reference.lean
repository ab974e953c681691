import WindowsFidoLogon.Library.JsonText
import WindowsFidoLogon.Model.BrokerService

/-!
# A machine to run the model on

An executable `Platform` that meets the contracts, so that none of them asks for
something impossible, and an `Environment` in which nothing goes wrong.  Both
are meant to be run on ASCII text; what depends on real keys is left open in
`FidoLibrary`.
-/

namespace WindowsFidoLogon
namespace Reference

open Text

/-! ## The platform -/

/-- The functions of libfido2, libcbor and BCrypt that a run needs answers of. -/
structure FidoLibrary where
  sha256 : Bytes → Option Bytes := fun _ => none
  cborLoad : Bytes → Option (CborItem × Nat) := fun _ => none
  fidoAssertVerify : AssertInput → Option Int := fun _ => none
  fidoCredSetup : Bytes → Bytes → Bytes → CredentialSetup := fun _ _ _ => .outOfMemory

/-- ASCII text as UTF-16. -/
def widen (b : Bytes) : Option WString :=
  if b.isEmpty || b.any (0x7F < ·) then none else some (b.map UInt8.toUInt16)

/-- ASCII text as UTF-8. -/
def narrow (w : WString) : Option Bytes :=
  if w.isEmpty || w.any (0x7F < ·) then none else some (w.map UInt16.toUInt8)

/-- The `parse_error` for a text that is wrong from its first character on. -/
def parseErrorText (input : Bytes) : Bytes :=
  text "[json.exception.parse_error.101] parse error at line 1, column 1: " ++
    text "syntax error while parsing value - invalid literal; last read: '" ++ input.take 1 ++
    text "'"

def parse (input : Bytes) : Except Bytes Json :=
  match Json.parse input with
  | some j => .ok j
  | none => .error (parseErrorText input)

def dump (j : Json) : Except Bytes Bytes :=
  if j.allStrings validUtf8 then .ok j.render
  else .error (text "[json.exception.type_error.316] invalid UTF-8 byte")

/-- A blob is its plaintext behind one byte of framing. -/
def unprotect : Bytes → Except DWORD Bytes
  | 1 :: plaintext => .ok plaintext
  | _ => .error ERROR_INVALID_DATA

def isStringSid (sid : WString) : Bool :=
  (wtext "S-1-").isPrefixOf sid && (sid.drop 4).all fun c => c == 45 || (48 ≤ c && c ≤ 57)

/-- The platform with a given libfido2. -/
def platform (fido : FidoLibrary) : Platform where
  multiByteToWideChar := widen
  wideCharToMultiByte := narrow
  parse := parse
  dump := dump
  cryptProtectData _ plaintext := 1 :: plaintext
  cryptUnprotectData := unprotect
  isStringSid := isStringSid
  sha256 := fido.sha256
  cborLoad := fido.cborLoad
  fidoAssertVerify := fido.fidoAssertVerify
  fidoCredSetup := fido.fidoCredSetup
  fidoStrerr _ := text "FIDO_ERR_INTERNAL"
  expandEnvironmentStrings := some
  getFullPathName := some

theorem widen_eq_some {b : Bytes} {w : WString} :
    widen b = some w ↔ b ≠ [] ∧ (∀ c ∈ b, c ≤ 0x7F) ∧ b.map UInt8.toUInt16 = w := by
  unfold widen
  split_ifs with h
  · simp only [Bool.or_eq_true, List.isEmpty_iff, List.any_eq_true, decide_eq_true_eq] at h
    refine iff_of_false (by simp) ?_
    rintro ⟨hNonempty, hAscii, -⟩
    obtain hEmpty | ⟨c, hc, hHigh⟩ := h
    · exact hNonempty hEmpty
    · exact absurd (hAscii c hc) (UInt8.not_le.mpr hHigh)
  · simp only [Bool.or_eq_true, List.isEmpty_iff, List.any_eq_true, decide_eq_true_eq, not_or,
      not_exists, not_and, UInt8.not_lt] at h
    exact ⟨fun hw => ⟨h.1, h.2, Option.some.inj hw⟩, fun hw => congrArg some hw.2.2⟩

theorem narrow_eq_some {w : WString} {b : Bytes} :
    narrow w = some b ↔ w ≠ [] ∧ (∀ c ∈ w, c ≤ 0x7F) ∧ w.map UInt16.toUInt8 = b := by
  unfold narrow
  split_ifs with h
  · simp only [Bool.or_eq_true, List.isEmpty_iff, List.any_eq_true, decide_eq_true_eq] at h
    refine iff_of_false (by simp) ?_
    rintro ⟨hNonempty, hAscii, -⟩
    obtain hEmpty | ⟨c, hc, hHigh⟩ := h
    · exact hNonempty hEmpty
    · exact absurd (hAscii c hc) (UInt16.not_le.mpr hHigh)
  · simp only [Bool.or_eq_true, List.isEmpty_iff, List.any_eq_true, decide_eq_true_eq, not_or,
      not_exists, not_and, UInt16.not_lt] at h
    exact ⟨fun hw => ⟨h.1, h.2, Option.some.inj hw⟩, fun hw => congrArg some hw.2.2⟩

/-- Narrowing undoes widening, and on ASCII widening undoes narrowing. -/
theorem map_narrow_widen (b : Bytes) : (b.map UInt8.toUInt16).map UInt16.toUInt8 = b := by
  simp [Function.comp_def]

theorem map_widen_narrow {w : WString} (hw : ∀ c ∈ w, c ≤ 0x7F) :
    (w.map UInt16.toUInt8).map UInt8.toUInt16 = w := by
  rw [List.map_map]
  refine (List.map_congr_left fun c hc => ?_).trans (List.map_id w)
  have hSmall : c.toNat ≤ 0x7F := UInt16.le_iff_toNat_le.mp (hw c hc)
  refine UInt16.toNat_inj.mp ?_
  simp
  omega

theorem transcodes (fido : FidoLibrary) : (platform fido).Transcodes where
  inverse b w := by
    show widen b = some w ↔ narrow w = some b
    rw [widen_eq_some, narrow_eq_some]
    constructor
    · rintro ⟨hNonempty, hAscii, rfl⟩
      refine ⟨by simpa using hNonempty, fun c hc => ?_, map_narrow_widen b⟩
      obtain ⟨d, hd, rfl⟩ := List.mem_map.mp hc
      have hSmall := UInt8.le_iff_toNat_le.mp (hAscii d hd)
      exact UInt16.le_iff_toNat_le.mpr (by simpa using hSmall)
    · rintro ⟨hNonempty, hAscii, rfl⟩
      refine ⟨by simpa using hNonempty, fun c hc => ?_, map_widen_narrow hAscii⟩
      obtain ⟨d, hd, rfl⟩ := List.mem_map.mp hc
      have hSmall := UInt16.le_iff_toNat_le.mp (hAscii d hd)
      refine UInt8.le_iff_toNat_le.mpr ?_
      simp at hSmall ⊢
      omega
  utf8 w b h := by
    obtain ⟨_, hAscii, rfl⟩ := narrow_eq_some.mp h
    refine validUtf8_of_ascii fun c hc => ?_
    obtain ⟨d, hd, rfl⟩ := List.mem_map.mp hc
    have hSmall := UInt16.le_iff_toNat_le.mp (hAscii d hd)
    refine UInt8.le_iff_toNat_le.mpr ?_
    simp at hSmall ⊢
    omega
  lengths w b h := by
    obtain ⟨_, _, rfl⟩ := narrow_eq_some.mp h
    rw [List.length_map]
    omega

theorem protects (fido : FidoLibrary) : (platform fido).Protects where
  unprotect _ _ := rfl
  nonempty _ _ := by simp [platform]

/-- What could be printed has only UTF-8 in it, and was rendered. -/
theorem of_dump_eq_ok {fido : FidoLibrary} {j : Json} {b : Bytes}
    (h : (platform fido).dump j = .ok b) : j.allStrings validUtf8 = true ∧ b = j.render := by
  have hDump : dump j = .ok b := h
  unfold dump at hDump
  split_ifs at hDump with hStrings
  exact ⟨hStrings, (Except.ok.inj hDump).symm⟩

theorem parsesDumps (fido : FidoLibrary) : (platform fido).ParsesDumps := by
  intro j b hCanonical hDump
  obtain ⟨hStrings, rfl⟩ := of_dump_eq_ok hDump
  show parse j.render = .ok j
  rw [parse, Json.parse_render hCanonical hStrings]

theorem strictUtf8 (fido : FidoLibrary) : (platform fido).StrictUtf8 where
  parse_strings b j h := by
    have h' : parse b = .ok j := h
    unfold parse at h'
    cases hj : Json.parse b with
    | none => simp [hj] at h'
    | some k =>
        simp only [hj, Except.ok.injEq] at h'
        exact h' ▸ Json.allStrings_of_parse hj
  dump_ok j h := ⟨j.render, if_pos h⟩
  dump_strict j b h := (of_dump_eq_ok h).1
  dump_error j e h := by
    have h' : dump j = .error e := h
    unfold dump at h'
    split_ifs at h'
    cases h'
    rfl
  strerr _ := rfl

/-- The value of a text that can be parsed. -/
def parsed (input : Bytes) : Json := (Json.parse input).getD .null

theorem parse_eq_parsed {fido : FidoLibrary} {input : Bytes}
    (h : (Json.parse input).isSome = true) : (platform fido).parse input = .ok (parsed input) := by
  obtain ⟨j, hj⟩ := Option.isSome_iff_exists.mp h
  show parse input = _
  rw [parse, parsed, hj]
  rfl

/-! ## The environment -/

/-- The computer `PC` with the one local user `alice`. -/
def aliceSid : WString := wtext "S-1-5-21-1-2-3-1001"

def accountDatabase : LocalAccount.AccountDatabase where
  computerName := .ok (wtext "PC")
  netUserGetInfo name :=
    if name = wtext "alice" then .ok () else .error 2221
  lookupAccountName name :=
    if name = wtext "PC\\alice" then
      .ok { domain := wtext "PC", isUser := true, sid := .ok aliceSid, name := wtext "alice" }
    else .error ERROR_NONE_MAPPED
  lookupAccountSid sid :=
    if sid = aliceSid then
      .ok { domain := wtext "PC", isUser := true, sid := .ok aliceSid, name := wtext "alice" }
    else .error ERROR_NONE_MAPPED
  logonUser name domain password :=
    if name = wtext "alice" ∧ domain = wtext "PC" ∧ password = wtext "secret" then .ok ()
    else .error 1326

/-- An environment in which every call succeeds.  Random bytes differ from tick
to tick, and the clock stands still. -/
def calm : Environment where
  readFault _ _ := none
  stepFault _ := .done
  registryReadFails _ := false
  clock _ := 0
  random bytes tick := some ⟨List.replicate bytes (UInt8.ofNat tick), List.length_replicate⟩
  accounts _ := accountDatabase
  systemTime _ := { year := 2025, month := 1, day := 1, hour := 0, minute := 0, second := 0 }
  filters _ :=
    { openStatus := ERROR_SUCCESS
      names := []
      endStatus := ERROR_NO_MORE_ITEMS
      systemDirectory := some (wtext "C:\\Windows\\system32")
      inprocServer := fun _ => none }

/-- Every challenge is the same, and no session has the identifier of another one. -/
def unrepeated : Environment :=
  { calm with
    random := fun bytes tick =>
      if bytes = 24 ∧ 256 ≤ tick then none
      else some ⟨List.replicate bytes (if bytes = 24 then UInt8.ofNat tick else 7),
        List.length_replicate⟩ }

/-! ## Vaults on it -/

/-- A valid credential; its key is not one that verifies anything. -/
def credential (credentialId : Bytes) : CredentialRecord :=
  { credentialId
    cosePublicKey := text "AAAA"
    aaguid := List.replicate 22 65
    label := text "Security key"
    createdAt := text "2025-01-01T00:00:00Z"
    signCount := 0 }

def alice (enforced : Bool) (credentials : List CredentialRecord) : AccountRecord :=
  { sid := aliceSid, username := wtext "alice", enforced, credentials }

def vault (accounts : List AccountRecord) : Vault :=
  { machineId := List.replicate 32 48
    rpId := LocalCredentialStore.rpIdOf (List.replicate 32 48)
    accounts }

/-! ## A security key -/

/-- The two coordinates of an ES256 public key. -/
def keyX : Bytes := Convert.base64URLDecode (text "2TuSlV63d16eW1GSEj1kdzKKpaf2Gg1MP2G_Xjs6RYo")
def keyY : Bytes := Convert.base64URLDecode (text "unu4Y_GghR-GWMSYg-F8MUdcm9uNisn9KZGysfwvy4s")

/-- The key in COSE encoding, as a vault holds it. -/
def keyCose : Bytes :=
  text "pQECAyYgASFYINk7kpVet3denltRkhI9ZHcyiqWn9hoNTD9hv147OkWKIlggunu4Y_GghR-GWMSYg-F8MUdcm9uNisn9KZGysfwvy4s"

/-- A credential with this key. -/
def keyCredential (credentialId : Bytes) : CredentialRecord :=
  { credential credentialId with cosePublicKey := keyCose }

/-- `FIDO_ERR_INVALID_SIG` -/
def FIDO_ERR_INVALID_SIG : Int := -6

/-- What the libraries say about this key, the RP ID of `vault`, and the signatures
that the key has made. -/
def securityKey (signed : List AssertInput) : FidoLibrary where
  sha256 input :=
    if input = LocalCredentialStore.rpIdOf (List.replicate 32 48) then
      some (Convert.base64URLDecode (text "pcrlIYpZCmvC4a8b9_jjVRdSUeBX2WtctsMacYaUNUw"))
    else none
  cborLoad input :=
    if input = Convert.base64URLDecode keyCose then
      some (.map [(.uint 1, .uint 2), (.uint 3, .negint 6), (.negint 0, .uint 1),
        (.negint 1, .bytestring (some keyX)), (.negint 2, .bytestring (some keyY))], 77)
    else none
  fidoAssertVerify input := some (if input ∈ signed then FIDO_OK else FIDO_ERR_INVALID_SIG)

/-- The file that holds a vault. -/
def vaultFile (v : Vault) : Bytes :=
  1 :: (LocalCredentialStore.vaultToJson (platform {}) v).render

/-- A machine with these vaults in the primary file and in the backup, and the
policy of the first one. -/
def machine (primary backup : Option Vault) : Machine where
  disk
    | .primary => primary.map vaultFile
    | .backup => backup.map vaultFile
    | _ => none
  registry := (primary.map LocalCredentialStore.publishedPolicy).getD {}

end Reference
end WindowsFidoLogon
