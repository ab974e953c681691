import WindowsFidoLogon.Library.Program
import WindowsFidoLogon.Model.Helpers

/-!
# Packed blobs decode to what was packed

Both packers copy their strings one after the other to the end of their structure.
Each copy writes a `UNICODE_STRING` and the characters, and leaves the ranges apart
from these as they were, so that after the last copy all strings are in place
(`packStrings_spec`).

The fields that are no strings are written by the packers themselves, all but one:
`KerbChangePasswordPack` does not write `Impersonating`, and the blob has there what
the memory held before.

`emitted_packs` carries this to what `GetSerialization` gives out.
-/

namespace WindowsFidoLogon
namespace Helpers

open Block ByteOrder Text

/-! ## Strings -/

@[simp] theorem length_wideBytes (units : WString) : (wideBytes units).length = 2 * units.length := by
  induction units with
  | nil => rfl
  | cons unit rest ih =>
      rw [wideBytes, List.flatMap_cons, List.length_append, length_littleEndian, List.length_cons]
      rw [wideBytes] at ih
      omega

theorem ofWideBytes_wideBytes (units : WString) : ofWideBytes (wideBytes units) = units := by
  induction units with
  | nil => rfl
  | cons unit rest ih =>
      have hUnit : ofLittleEndian (littleEndian 2 unit.toNat) = unit.toNat :=
        ofLittleEndian_of_lt unit.toNat_lt
      show UInt16.ofNat (ofLittleEndian (littleEndian 2 unit.toNat)) :: ofWideBytes (wideBytes rest) = _
      rw [hUnit, ih, UInt16.ofNat_toNat]

/-- A string is accepted when its length in bytes fits a `USHORT`, and it is taken up to
its first null character. -/
theorem unicodeStringInitWithString_iff {pwz : Option WString} {s : UnicodeString} :
    unicodeStringInitWithString pwz = .ok s ↔ ∃ text, pwz = some text ∧ s.units = cstr text := by
  obtain ⟨units, hFits⟩ := s
  cases pwz with
  | none => simp [unicodeStringInitWithString]
  | some text =>
      unfold unicodeStringInitWithString
      dsimp only
      constructor
      · intro h
        split_ifs at h with hLong hShort
        cases h
        exact ⟨text, rfl, rfl⟩
      · rintro ⟨text', hText, hUnits⟩
        obtain rfl := Option.some.inj hText
        subst hUnits
        rw [if_neg (by omega), dif_pos hFits]

theorem unicodeStringInitWithString_of_long {text : WString} (h : 65535 < 2 * (cstr text).length) :
    unicodeStringInitWithString (some text) =
      .error (hresultFromWin32 ERROR_ARITHMETIC_OVERFLOW) := by
  unfold unicodeStringInitWithString
  dsimp only
  rw [dif_neg (by omega)]
  split_ifs <;> rfl

/-! ## One string -/

/-- The string lies at `cursor`, and its structure at `pus`. -/
structure Holds (block : Bytes) (pus cursor : Nat) (rus : UnicodeString) : Prop where
  length : read block pus 2 = some (littleEndian 2 rus.length)
  maximumLength : read block (pus + 2) 2 = some (littleEndian 2 rus.length)
  buffer : read block (pus + 8) 8 = some (littleEndian 8 cursor)
  content : read block cursor rus.length = some (wideBytes rus.units)

/-- What is apart from the structure and from the characters is read as before. -/
def Keeps (block block' : Bytes) (pus cursor length : Nat) : Prop :=
  ∀ offset count, Apart offset count pus 16 → Apart offset count cursor length →
    read block' offset count = read block offset count

/-- A string that is read as before is where it was. -/
theorem Holds.of_reads {block block' : Bytes} {pus cursor : Nat} {rus : UnicodeString}
    (h : Holds block pus cursor rus)
    (hStructure : ∀ offset count, pus ≤ offset → offset + count ≤ pus + 16 →
      read block' offset count = read block offset count)
    (hCharacters : read block' cursor rus.length = read block cursor rus.length) :
    Holds block' pus cursor rus := by
  constructor
  case length => rw [hStructure _ _ (by omega) (by omega), h.length]
  case maximumLength => rw [hStructure _ _ (by omega) (by omega), h.maximumLength]
  case buffer => rw [hStructure _ _ (by omega) (by omega), h.buffer]
  case content => rw [hCharacters, h.content]

/-- A string is copied into a block that it fits into, and its buffer made an offset. -/
theorem packString_spec (address : UInt64) (rus : UnicodeString) {pus cursor : Nat} {block : Bytes}
    (hStructure : pus + 16 ≤ cursor) (hInside : cursor + rus.length ≤ block.length) :
    ∃ copied packed, unicodeStringPackedUnicodeStringCopy address rus cursor pus block = some copied ∧
      write copied (pus + 8) (littleEndian 8 cursor) = some packed ∧
      packed.length = block.length ∧ Holds packed pus cursor rus ∧
      Keeps block packed pus cursor rus.length := by
  have hContent : (wideBytes rus.units).length = rus.length := length_wideBytes rus.units
  obtain ⟨first, hFirst⟩ : ∃ first, write block pus (littleEndian 2 rus.length) = some first :=
    write_of_le _ (by rw [length_littleEndian]; omega)
  have hFirstLength := length_write hFirst
  obtain ⟨second, hSecond⟩ :
      ∃ second, write first (pus + 2) (littleEndian 2 rus.length) = some second :=
    write_of_le _ (by rw [length_littleEndian]; omega)
  have hSecondLength := length_write hSecond
  obtain ⟨third, hThird⟩ :
      ∃ third, write second (pus + 8) (littleEndian 8 (address.toNat + cursor)) = some third :=
    write_of_le _ (by rw [length_littleEndian]; omega)
  have hThirdLength := length_write hThird
  obtain ⟨copied, hCopied⟩ : ∃ copied, write third cursor (wideBytes rus.units) = some copied :=
    write_of_le _ (by omega)
  have hCopiedLength := length_write hCopied
  obtain ⟨packed, hPacked⟩ : ∃ packed, write copied (pus + 8) (littleEndian 8 cursor) = some packed :=
    write_of_le _ (by rw [length_littleEndian]; omega)
  have hPackedLength := length_write hPacked
  -- what each of the writes leaves as it was
  have hKeepFirst : ∀ o n, Apart pus 2 o n → read first o n = read block o n :=
    fun o n h => read_write_apart hFirst (by rwa [length_littleEndian])
  have hKeepSecond : ∀ o n, Apart (pus + 2) 2 o n → read second o n = read first o n :=
    fun o n h => read_write_apart hSecond (by rwa [length_littleEndian])
  have hKeepThird : ∀ o n, Apart (pus + 8) 8 o n → read third o n = read second o n :=
    fun o n h => read_write_apart hThird (by rwa [length_littleEndian])
  have hKeepCopied : ∀ o n, Apart cursor rus.length o n → read copied o n = read third o n :=
    fun o n h => read_write_apart hCopied (by rwa [hContent])
  have hKeepPacked : ∀ o n, Apart (pus + 8) 8 o n → read packed o n = read copied o n :=
    fun o n h => read_write_apart hPacked (by rwa [length_littleEndian])
  refine ⟨copied, packed, ?_, hPacked, by omega, ?_, ?_⟩
  · unfold unicodeStringPackedUnicodeStringCopy
    rw [hFirst, Option.bind_eq_bind, Option.bind_some, hSecond, Option.bind_some, hThird,
      Option.bind_some, hCopied]
  · constructor
    case length =>
      have hSame := read_write_same hFirst
      rw [length_littleEndian] at hSame
      rw [hKeepPacked _ _ (by unfold Apart; omega), hKeepCopied _ _ (by unfold Apart; omega),
        hKeepThird _ _ (by unfold Apart; omega), hKeepSecond _ _ (by unfold Apart; omega), hSame]
    case maximumLength =>
      have hSame := read_write_same hSecond
      rw [length_littleEndian] at hSame
      rw [hKeepPacked _ _ (by unfold Apart; omega), hKeepCopied _ _ (by unfold Apart; omega),
        hKeepThird _ _ (by unfold Apart; omega), hSame]
    case buffer =>
      have hSame := read_write_same hPacked
      rwa [length_littleEndian] at hSame
    case content =>
      have hSame := read_write_same hCopied
      rw [hContent] at hSame
      rw [hKeepPacked _ _ (by unfold Apart; omega), hSame]
  · intro offset count hStructureApart hContentApart
    unfold Apart at hStructureApart hContentApart
    rw [hKeepPacked _ _ (by unfold Apart; omega), hKeepCopied _ _ (by unfold Apart; omega),
      hKeepThird _ _ (by unfold Apart; omega), hKeepSecond _ _ (by unfold Apart; omega),
      hKeepFirst _ _ (by unfold Apart; omega)]

/-! ## All strings -/

/-- The strings lie one after the other from `cursor` on. -/
def AllHold (block : Bytes) : List (Nat × UnicodeString) → Nat → Prop
  | [], _ => True
  | (pus, rus) :: rest, cursor =>
      Holds block pus cursor rus ∧ AllHold block rest (cursor + rus.length)

def totalLength (strings : List (Nat × UnicodeString)) : Nat :=
  (strings.map fun string => string.2.length).sum

/-- After the last copy every string is in place, and what is apart from the structures
and the characters is as it was. -/
theorem packStrings_spec (address : UInt64) {strings : List (Nat × UnicodeString)}
    (hApart : strings.Pairwise fun string other => Apart string.1 16 other.1 16) {start : Nat}
    (hBefore : ∀ string ∈ strings, string.1 + 16 ≤ start) {cursor : Nat} (hCursor : start ≤ cursor)
    {block : Bytes} (hInside : cursor + totalLength strings ≤ block.length) :
    ∃ packed, packStrings address strings cursor block = some packed ∧
      packed.length = block.length ∧ AllHold packed strings cursor ∧
      ∀ offset count, (∀ string ∈ strings, Apart offset count string.1 16) →
        Apart offset count cursor (totalLength strings) →
          read packed offset count = read block offset count := by
  induction strings generalizing cursor block with
  | nil => exact ⟨block, rfl, rfl, trivial, fun _ _ _ _ => rfl⟩
  | cons string rest ih =>
      obtain ⟨pus, rus⟩ := string
      obtain ⟨hFirst, hRest⟩ := List.pairwise_cons.mp hApart
      have hTotal : totalLength ((pus, rus) :: rest) = rus.length + totalLength rest := by
        simp [totalLength]
      have hStructure : pus + 16 ≤ start := hBefore (pus, rus) List.mem_cons_self
      rw [hTotal] at hInside
      obtain ⟨copied, fixed, hCopied, hFixed, hLength, hHolds, hKeeps⟩ :=
        packString_spec address rus (show pus + 16 ≤ cursor by omega)
          (show cursor + rus.length ≤ block.length by omega)
      obtain ⟨packed, hPacked, hPackedLength, hAll, hSame⟩ := ih hRest
        (fun other hOther => hBefore other (List.mem_cons_of_mem _ hOther))
        (show start ≤ cursor + rus.length by omega)
        (show cursor + rus.length + totalLength rest ≤ fixed.length by omega)
      refine ⟨packed, ?_, by omega, ⟨?_, hAll⟩, ?_⟩
      · rw [packStrings, hCopied, Option.bind_eq_bind, Option.bind_some, hFixed, Option.bind_some,
          hPacked]
      · -- the copies of the other strings are apart from this one
        refine hHolds.of_reads (fun offset count hFrom hTo => hSame _ _ ?_ ?_) (hSame _ _ ?_ ?_)
        · intro other hOther
          have hOtherApart := hFirst other hOther
          unfold Apart at hOtherApart ⊢
          omega
        · exact .inl (by omega)
        · intro other hOther
          have hOtherBefore := hBefore other (List.mem_cons_of_mem _ hOther)
          exact .inr (by omega)
        · exact .inl (Nat.le_refl _)
      · intro offset count hStructures hCharacters
        rw [hTotal] at hCharacters
        unfold Apart at hCharacters
        rw [hSame offset count (fun other hOther => hStructures other (List.mem_cons_of_mem _ hOther))
            (by unfold Apart; omega),
          hKeeps offset count (hStructures (pus, rus) List.mem_cons_self) (by unfold Apart; omega)]

/-- The packers write the message type, and then the strings. -/
theorem packTyped_spec (address : UInt64) (messageType : UInt32)
    {strings : List (Nat × UnicodeString)}
    (hApart : strings.Pairwise fun string other => Apart string.1 16 other.1 16) {start : Nat}
    (hStart : 4 ≤ start)
    (hBefore : ∀ string ∈ strings, 4 ≤ string.1 ∧ string.1 + 16 ≤ start) {block : Bytes}
    (hInside : start + totalLength strings ≤ block.length) :
    ∃ typed packed, write block 0 (littleEndian 4 messageType.toNat) = some typed ∧
      packStrings address strings start typed = some packed ∧ packed.length = block.length ∧
      AllHold packed strings start ∧ read packed 0 4 = some (littleEndian 4 messageType.toNat) ∧
      ∀ offset count, 4 ≤ offset → offset + count ≤ start →
        (∀ string ∈ strings, Apart offset count string.1 16) →
          read packed offset count = read block offset count := by
  obtain ⟨typed, hTyped⟩ : ∃ typed, write block 0 (littleEndian 4 messageType.toNat) = some typed :=
    write_of_le _ (by rw [length_littleEndian]; omega)
  have hTypedLength := length_write hTyped
  obtain ⟨packed, hPacked, hLength, hAll, hSame⟩ :=
    packStrings_spec address hApart (fun string hString => (hBefore string hString).2)
      (Nat.le_refl start) (show start + totalLength strings ≤ typed.length by omega)
  refine ⟨typed, packed, hTyped, hPacked, by omega, hAll, ?_, ?_⟩
  · have hType := read_write_same hTyped
    rw [length_littleEndian] at hType
    rw [hSame 0 4 (fun string hString => .inl (hBefore string hString).1) (.inl (by omega)), hType]
  · intro offset count hFrom hTo hStructures
    rw [hSame offset count hStructures (.inl hTo),
      read_write_apart hTyped (.inl (by rw [length_littleEndian]; omega))]

theorem totalLength_le (strings : List (Nat × UnicodeString)) :
    totalLength strings ≤ strings.length * 65535 := by
  induction strings with
  | nil => exact Nat.le_refl 0
  | cons string rest ih =>
      have hFits := string.2.fits
      have hTotal : totalLength (string :: rest) = string.2.length + totalLength rest := by
        simp [totalLength]
      rw [hTotal, List.length_cons, UnicodeString.length]
      omega

/-- Four strings and a structure are far from the bounds of a `DWORD`. -/
theorem toNat_packedSize {sizeof : Nat} (hSizeof : sizeof ≤ 80) {strings : List (Nat × UnicodeString)}
    (hFew : strings.length ≤ 4) :
    (packedSize sizeof strings).toNat = sizeof + totalLength strings := by
  have hTotal := totalLength_le strings
  rw [packedSize, UInt32.toNat_ofNat']
  exact Nat.mod_eq_of_lt (by unfold totalLength at hTotal; omega)

/-! ## Unpacking -/

theorem unpackNumber_littleEndian {blob : Bytes} {offset count n : Nat}
    (h : read blob offset count = some (littleEndian count n)) (hn : n < 256 ^ count) :
    unpackNumber blob offset count = some n := by
  rw [unpackNumber, h, Option.map_some, ofLittleEndian_of_lt hn]

theorem unpackString_of_holds {blob : Bytes} {pus cursor : Nat} {rus : UnicodeString}
    (h : Holds blob pus cursor rus) (hCursor : cursor < 256 ^ 8) :
    unpackString blob pus =
      some { length := rus.length, maximumLength := rus.length, buffer := cursor, units := rus.units } := by
  have hLength : rus.length < 256 ^ 2 := by
    have hFits := rus.fits
    rw [UnicodeString.length]
    omega
  rw [unpackString, unpackNumber_littleEndian h.length hLength,
    unpackNumber_littleEndian h.maximumLength hLength, unpackNumber_littleEndian h.buffer hCursor,
    Option.bind_eq_bind, Option.bind_some, Option.bind_some, Option.bind_some, h.content,
    Option.bind_eq_bind, Option.bind_some, ofWideBytes_wideBytes]
  rfl

/-- An unpacked string is the one that was packed. -/
structure UnpackedString.Shows (s : UnpackedString) (rus : UnicodeString) : Prop where
  length : s.length = rus.length
  maximumLength : s.maximumLength = rus.length
  units : s.units = rus.units

def UnpackedString.range (s : UnpackedString) : Nat × Nat := (s.buffer, s.length)

/-- The size is computed without overflow, and the strings fill the blob from the end of
the structure on, without overlaps. -/
structure Fills (sizeof : Nat) (strings : List (Nat × UnicodeString)) (blob : Bytes) (cb : DWORD)
    (ranges : List (Nat × Nat)) : Prop where
  exact : cb.toNat = sizeof + totalLength strings
  size : blob.length = cb.toNat
  tiles : Tiles sizeof blob.length ranges
  after : ∀ range ∈ ranges, sizeof ≤ range.1
  apart : ranges.Pairwise fun range other => Apart range.1 range.2 other.1 other.2

theorem fills_of_tiles {sizeof : Nat} {strings : List (Nat × UnicodeString)} {blob : Bytes}
    {cb : DWORD} {ranges : List (Nat × Nat)} (hExact : cb.toNat = sizeof + totalLength strings)
    (hSize : blob.length = cb.toNat) (hTiles : Tiles sizeof blob.length ranges) :
    Fills sizeof strings blob cb ranges :=
  ⟨hExact, hSize, hTiles, fun range hRange => (hTiles.bounds range hRange).1, hTiles.apart⟩

/-! ## A logon -/

/-- The allocator of the packers. -/
abbrev Allocator : Type := (size : DWORD) → Option (Allocation size.toNat)

structure UnpackedLogon where
  messageType : Nat
  logonDomainName : UnpackedString
  userName : UnpackedString
  password : UnpackedString
  logonId : Nat
  deriving DecidableEq, Repr

def unpackLogon (blob : Bytes) : Option UnpackedLogon := do
  let messageType ← unpackNumber blob 0 4
  let logonDomainName ← unpackString blob 8
  let userName ← unpackString blob 24
  let password ← unpackString blob 40
  let logonId ← unpackNumber blob 56 8
  return { messageType, logonDomainName, userName, password, logonId }

def UnpackedLogon.ranges (u : UnpackedLogon) : List (Nat × Nat) :=
  [u.logonDomainName.range, u.userName.range, u.password.range]

structure UnpackedLogon.Shows (u : UnpackedLogon) (logon : KerbInteractiveUnlockLogon) : Prop where
  messageType : u.messageType = logon.messageType.toNat
  logonDomainName : u.logonDomainName.Shows logon.logonDomainName
  userName : u.userName.Shows logon.userName
  password : u.password.Shows logon.password
  logonId : u.logonId = logon.logonId.toNat

/-- The blob of a logon decodes to it, whatever the memory held. -/
def LogonPacks (coTaskMemAlloc : Allocator) (logon : KerbInteractiveUnlockLogon) : Prop :=
  (coTaskMemAlloc (packedSize sizeofLogon logon.strings) = none ∧
    kerbInteractiveUnlockLogonPack coTaskMemAlloc logon = some (.error E_OUTOFMEMORY)) ∨
  ∃ blob cb unpacked, kerbInteractiveUnlockLogonPack coTaskMemAlloc logon = some (.ok (blob, cb)) ∧
    Fills sizeofLogon logon.strings blob cb unpacked.ranges ∧
    unpackLogon blob = some unpacked ∧ unpacked.Shows logon

/-- A string at an offset of a blob. -/
def UnicodeString.at (rus : UnicodeString) (buffer : Nat) : UnpackedString where
  length := rus.length
  maximumLength := rus.length
  buffer
  units := rus.units

theorem UnicodeString.shows_at (rus : UnicodeString) (buffer : Nat) : (rus.at buffer).Shows rus :=
  ⟨rfl, rfl, rfl⟩

/-- What the blob of a logon without an identifier is read as. -/
def unpackedLogon (logon : KerbInteractiveUnlockLogon) : UnpackedLogon where
  messageType := logon.messageType.toNat
  logonDomainName := logon.logonDomainName.at 64
  userName := logon.userName.at (64 + logon.logonDomainName.length)
  password := logon.password.at (64 + logon.logonDomainName.length + logon.userName.length)
  logonId := 0

theorem logonStrings_apart (logon : KerbInteractiveUnlockLogon) :
    logon.strings.Pairwise fun string other => Apart string.1 16 other.1 16 := by
  simp [KerbInteractiveUnlockLogon.strings, Apart]

theorem totalLength_logon (logon : KerbInteractiveUnlockLogon) :
    totalLength logon.strings =
      logon.logonDomainName.length + logon.userName.length + logon.password.length := by
  simp [totalLength, KerbInteractiveUnlockLogon.strings, Nat.add_assoc]

theorem length_lt (rus : UnicodeString) : rus.length < 65536 := by
  have hFits := rus.fits
  rw [UnicodeString.length]
  omega

theorem logonBlob_spec (address : UInt64) (logon : KerbInteractiveUnlockLogon) {content : Bytes}
    (hContent : content.length = 64 + totalLength logon.strings) :
    ∃ cleared typed packed, write content 56 (List.replicate 8 0) = some cleared ∧
      write cleared 0 (littleEndian 4 logon.messageType.toNat) = some typed ∧
      packStrings address logon.strings 64 typed = some packed ∧
      packed.length = content.length ∧ unpackLogon packed = some (unpackedLogon logon) := by
  obtain ⟨cleared, hCleared⟩ : ∃ cleared, write content 56 (List.replicate 8 0) = some cleared :=
    write_of_le _ (by rw [List.length_replicate]; omega)
  have hClearedLength := length_write hCleared
  obtain ⟨typed, packed, hTyped, hPacked, hLength, hAll, hType, hSame⟩ :=
    packTyped_spec address logon.messageType (logonStrings_apart logon) (show 4 ≤ 64 by decide)
      (by simp [KerbInteractiveUnlockLogon.strings])
      (show 64 + totalLength logon.strings ≤ cleared.length by omega)
  obtain ⟨hDomain, hUser, hPassword, _⟩ := hAll
  have hDomainLength := length_lt logon.logonDomainName
  have hUserLength := length_lt logon.userName
  refine ⟨cleared, typed, packed, hCleared, hTyped, hPacked, by omega, ?_⟩
  have hLogonId : unpackNumber packed 56 8 = some 0 := by
    have hZero := read_write_same hCleared
    rw [List.length_replicate] at hZero
    rw [unpackNumber, hSame 56 8 (by decide) (by decide)
      (by simp [KerbInteractiveUnlockLogon.strings, Apart]), hZero]
    rfl
  rw [unpackLogon, unpackNumber_littleEndian hType logon.messageType.toNat_lt,
    unpackString_of_holds hDomain (by omega), unpackString_of_holds hUser (by omega),
    unpackString_of_holds hPassword (by omega), hLogonId]
  rfl

theorem logonPacks (coTaskMemAlloc : Allocator) {logon : KerbInteractiveUnlockLogon}
    (hLogonId : logon.logonId = 0) : LogonPacks coTaskMemAlloc logon := by
  have hSize : (packedSize sizeofLogon logon.strings).toNat =
      sizeofLogon + totalLength logon.strings :=
    toNat_packedSize (by decide) (by simp [KerbInteractiveUnlockLogon.strings])
  unfold LogonPacks kerbInteractiveUnlockLogonPack
  dsimp only
  cases hMemory : coTaskMemAlloc (packedSize sizeofLogon logon.strings) with
  | none => exact .inl ⟨rfl, rfl⟩
  | some memory =>
      right
      have hContent : memory.content.length = 64 + totalLength logon.strings :=
        memory.length_content.trans hSize
      obtain ⟨cleared, typed, packed, hCleared, hTyped, hPacked, hLength, hUnpacked⟩ :=
        logonBlob_spec memory.address logon hContent
      refine ⟨packed, packedSize sizeofLogon logon.strings, unpackedLogon logon, ?_, ?_, hUnpacked, ?_⟩
      · dsimp only
        have hStrings : packStrings memory.address logon.strings sizeofLogon typed = some packed :=
          hPacked
        rw [hCleared, Option.bind_eq_bind, Option.bind_some, hTyped, Option.bind_some, hStrings,
          Option.bind_some]
      · refine fills_of_tiles hSize (by rw [hLength, hContent, hSize]; rfl) ?_
        refine ⟨rfl, rfl, rfl, ?_⟩
        show 64 + logon.logonDomainName.length + logon.userName.length + logon.password.length = _
        rw [hLength, hContent, totalLength_logon]
        omega
      · exact ⟨rfl, UnicodeString.shows_at _ _, UnicodeString.shows_at _ _,
          UnicodeString.shows_at _ _, by rw [hLogonId]; rfl⟩

/-! ## A change of password -/

structure UnpackedChangePassword where
  messageType : Nat
  domainName : UnpackedString
  accountName : UnpackedString
  oldPassword : UnpackedString
  newPassword : UnpackedString
  impersonating : Nat
  deriving DecidableEq, Repr

def unpackChangePassword (blob : Bytes) : Option UnpackedChangePassword := do
  let messageType ← unpackNumber blob 0 4
  let domainName ← unpackString blob 8
  let accountName ← unpackString blob 24
  let oldPassword ← unpackString blob 40
  let newPassword ← unpackString blob 56
  let impersonating ← unpackNumber blob 72 1
  return { messageType, domainName, accountName, oldPassword, newPassword, impersonating }

def UnpackedChangePassword.ranges (u : UnpackedChangePassword) : List (Nat × Nat) :=
  [u.domainName.range, u.accountName.range, u.oldPassword.range, u.newPassword.range]

structure UnpackedChangePassword.Shows (u : UnpackedChangePassword)
    (request : KerbChangePasswordRequest) : Prop where
  messageType : u.messageType = request.messageType.toNat
  domainName : u.domainName.Shows request.domainName
  accountName : u.accountName.Shows request.accountName
  oldPassword : u.oldPassword.Shows request.oldPassword
  newPassword : u.newPassword.Shows request.newPassword
  impersonating : u.impersonating = request.impersonating.toNat

/-- The blob of a request decodes to it. -/
def ChangePasswordPacks (coTaskMemAlloc : Allocator) (request : KerbChangePasswordRequest) : Prop :=
  (coTaskMemAlloc (packedSize sizeofChangePassword request.strings) = none ∧
    kerbChangePasswordPack coTaskMemAlloc request = some (.error E_OUTOFMEMORY)) ∨
  ∃ blob cb unpacked, kerbChangePasswordPack coTaskMemAlloc request = some (.ok (blob, cb)) ∧
    Fills sizeofChangePassword request.strings blob cb unpacked.ranges ∧
    unpackChangePassword blob = some unpacked ∧ unpacked.Shows request

/-- The memory that is allocated holds the flag of the request in the place of
`Impersonating`. -/
def HoldsFlag (coTaskMemAlloc : Allocator) (request : KerbChangePasswordRequest) : Prop :=
  ∀ memory, coTaskMemAlloc (packedSize sizeofChangePassword request.strings) = some memory →
    memory.content.getD 72 0 = request.impersonating

/-- What the blob of a request is read as, with the byte that the memory held before. -/
def unpackedChangePassword (request : KerbChangePasswordRequest) (prior : UInt8) :
    UnpackedChangePassword where
  messageType := request.messageType.toNat
  domainName := request.domainName.at 80
  accountName := request.accountName.at (80 + request.domainName.length)
  oldPassword := request.oldPassword.at (80 + request.domainName.length + request.accountName.length)
  newPassword := request.newPassword.at
    (80 + request.domainName.length + request.accountName.length + request.oldPassword.length)
  impersonating := prior.toNat

theorem changePasswordStrings_apart (request : KerbChangePasswordRequest) :
    request.strings.Pairwise fun string other => Apart string.1 16 other.1 16 := by
  simp [KerbChangePasswordRequest.strings, Apart]

theorem totalLength_changePassword (request : KerbChangePasswordRequest) :
    totalLength request.strings = request.domainName.length + request.accountName.length +
      request.oldPassword.length + request.newPassword.length := by
  simp [totalLength, KerbChangePasswordRequest.strings, Nat.add_assoc]

theorem changePasswordBlob_spec (address : UInt64) (request : KerbChangePasswordRequest)
    {content : Bytes} (hContent : content.length = 80 + totalLength request.strings) :
    ∃ typed packed, write content 0 (littleEndian 4 request.messageType.toNat) = some typed ∧
      packStrings address request.strings 80 typed = some packed ∧
      packed.length = content.length ∧
      unpackChangePassword packed = some (unpackedChangePassword request (content.getD 72 0)) := by
  obtain ⟨typed, packed, hTyped, hPacked, hLength, hAll, hType, hSame⟩ :=
    packTyped_spec address request.messageType (changePasswordStrings_apart request)
      (show 4 ≤ 80 by decide) (by simp [KerbChangePasswordRequest.strings])
      (show 80 + totalLength request.strings ≤ content.length by omega)
  obtain ⟨hDomain, hAccount, hOld, hNew, _⟩ := hAll
  have hDomainLength := length_lt request.domainName
  have hAccountLength := length_lt request.accountName
  have hOldLength := length_lt request.oldPassword
  refine ⟨typed, packed, hTyped, hPacked, hLength, ?_⟩
  -- no write reaches the byte of `Impersonating`
  have hPrior : unpackNumber packed 72 1 = some (content.getD 72 0).toNat := by
    have hInside : 72 < content.length := by omega
    have hByte : read content 72 1 = some [content.getD 72 0] := by
      rw [read_of_le (by omega), List.drop_eq_getElem_cons hInside, List.take_succ_cons, List.take_zero,
        List.getD_eq_getElem?_getD, List.getElem?_eq_getElem hInside, Option.getD_some]
    rw [unpackNumber, hSame 72 1 (by decide) (by decide)
      (by simp [KerbChangePasswordRequest.strings, Apart]), hByte]
    rfl
  rw [unpackChangePassword, unpackNumber_littleEndian hType request.messageType.toNat_lt,
    unpackString_of_holds hDomain (by omega), unpackString_of_holds hAccount (by omega),
    unpackString_of_holds hOld (by omega), unpackString_of_holds hNew (by omega), hPrior]
  rfl

theorem changePasswordPacks_iff {coTaskMemAlloc : Allocator} {request : KerbChangePasswordRequest} :
    ChangePasswordPacks coTaskMemAlloc request ↔ HoldsFlag coTaskMemAlloc request := by
  have hSize : (packedSize sizeofChangePassword request.strings).toNat =
      sizeofChangePassword + totalLength request.strings :=
    toNat_packedSize (by decide) (by simp [KerbChangePasswordRequest.strings])
  unfold ChangePasswordPacks HoldsFlag kerbChangePasswordPack
  dsimp only
  cases hMemory : coTaskMemAlloc (packedSize sizeofChangePassword request.strings) with
  | none => exact iff_of_true (.inl ⟨rfl, rfl⟩) fun memory h => absurd h (by simp)
  | some memory =>
      have hContent : memory.content.length = 80 + totalLength request.strings :=
        memory.length_content.trans hSize
      obtain ⟨typed, packed, hTyped, hPacked, hLength, hUnpacked⟩ :=
        changePasswordBlob_spec memory.address request hContent
      have hResult : (do
          let block ← write memory.content 0 (littleEndian 4 request.messageType.toNat)
          let block ← packStrings memory.address request.strings sizeofChangePassword block
          some (Except.ok (block, packedSize sizeofChangePassword request.strings)) :
            Option (Except HRESULT (Bytes × DWORD))) =
          some (.ok (packed, packedSize sizeofChangePassword request.strings)) := by
        have hStrings : packStrings memory.address request.strings sizeofChangePassword typed =
            some packed := hPacked
        rw [hTyped, Option.bind_eq_bind, Option.bind_some, hStrings, Option.bind_some]
      constructor
      · rintro (⟨hNone, _⟩ | ⟨blob, cb, unpacked, hPack, _, hBlob, hShows⟩) other hOther
        · cases hNone
        · obtain rfl := Option.some.inj hOther
          obtain ⟨rfl, _⟩ := Prod.mk.inj (Except.ok.inj (Option.some.inj (hResult.symm.trans hPack)))
          obtain rfl := Option.some.inj (hUnpacked.symm.trans hBlob)
          exact UInt8.toNat_inj.mp hShows.impersonating
      · intro hFlag
        refine .inr ⟨packed, _, _, hResult, ?_, hUnpacked, ?_⟩
        · refine fills_of_tiles hSize (by rw [hLength, hContent, hSize]; rfl) ?_
          refine ⟨rfl, rfl, rfl, rfl, ?_⟩
          show 80 + request.domainName.length + request.accountName.length +
            request.oldPassword.length + request.newPassword.length = _
          rw [hLength, hContent, totalLength_changePassword]
          omega
        · exact ⟨rfl, UnicodeString.shows_at _ _, UnicodeString.shows_at _ _,
            UnicodeString.shows_at _ _, UnicodeString.shows_at _ _,
            congrArg UInt8.toNat (hFlag memory rfl)⟩

/-! ## Both packers -/

/-- The string is the one that the pointer refers to, up to its first null character. -/
def UnicodeString.Refers (s : UnicodeString) (pwz : Option WString) : Prop :=
  ∃ text, pwz = some text ∧ s.units = cstr text

/-- What `KerbInteractiveUnlockLogonInit` makes of its arguments. -/
structure Initializes (pwzDomain pwzUsername pwzPassword : Option WString) (cpus : UsageScenario)
    (logon : KerbInteractiveUnlockLogon) : Prop where
  message : ∃ message, Tile.messageType cpus = .ok message ∧ logon.messageType = submitType message
  logonDomainName : logon.logonDomainName.Refers pwzDomain
  userName : logon.userName.Refers pwzUsername
  password : logon.password.Refers pwzPassword
  logonId : logon.logonId = 0

theorem initializes_of_init {pwzDomain pwzUsername pwzPassword : Option WString}
    {cpus : UsageScenario} {logon : KerbInteractiveUnlockLogon}
    (h : kerbInteractiveUnlockLogonInit pwzDomain pwzUsername pwzPassword cpus = .ok logon) :
    Initializes pwzDomain pwzUsername pwzPassword cpus logon := by
  obtain ⟨domain, hDomain, h⟩ := Program.except_bind_eq_ok.mp h
  obtain ⟨user, hUser, h⟩ := Program.except_bind_eq_ok.mp h
  obtain ⟨password, hPassword, h⟩ := Program.except_bind_eq_ok.mp h
  obtain ⟨message, hMessage, h⟩ := Program.except_bind_eq_ok.mp h
  obtain rfl := Except.ok.inj h
  exact ⟨⟨message, hMessage, rfl⟩, unicodeStringInitWithString_iff.mp hDomain,
    unicodeStringInitWithString_iff.mp hUser, unicodeStringInitWithString_iff.mp hPassword, rfl⟩

/-- Strings that do not fit are refused, and the blobs of all logons, and of a request,
decode to what was packed. -/
structure PacksFaithfully (coTaskMemAlloc : Allocator) (request : KerbChangePasswordRequest) : Prop where
  tooLong : ∀ text, 65535 < 2 * (cstr text).length →
    unicodeStringInitWithString (some text) = .error (hresultFromWin32 ERROR_ARITHMETIC_OVERFLOW)
  logons : ∀ pwzDomain pwzUsername pwzPassword cpus logon,
    kerbInteractiveUnlockLogonInit pwzDomain pwzUsername pwzPassword cpus = .ok logon →
      Initializes pwzDomain pwzUsername pwzPassword cpus logon ∧ LogonPacks coTaskMemAlloc logon
  request : ChangePasswordPacks coTaskMemAlloc request

/-- The packers are faithful exactly when the memory for a request holds its flag before
it is written to. -/
theorem packsFaithfully_iff (coTaskMemAlloc : Allocator) (request : KerbChangePasswordRequest) :
    PacksFaithfully coTaskMemAlloc request ↔ HoldsFlag coTaskMemAlloc request := by
  constructor
  · exact fun h => changePasswordPacks_iff.mp h.request
  · intro hFlag
    refine ⟨fun text => unicodeStringInitWithString_of_long, ?_, changePasswordPacks_iff.mpr hFlag⟩
    intro pwzDomain pwzUsername pwzPassword cpus logon hInit
    have hInitializes := initializes_of_init hInit
    exact ⟨hInitializes, logonPacks coTaskMemAlloc hInitializes.logonId⟩

section Example

/-- An allocator that returns memory with other data in it. -/
def staleMemory : Allocator := fun size =>
  some { address := 0x1000, content := List.replicate size.toNat 1, length_content := by simp }

/-- The request of `PackPasswordChange` for `alice` on `PC`. -/
def aliceRequest : KerbChangePasswordRequest where
  messageType := kerbChangePasswordMessage
  domainName := ⟨wtext "PC", by decide⟩
  accountName := ⟨wtext "alice", by decide⟩
  oldPassword := ⟨wtext "old", by decide⟩
  newPassword := ⟨wtext "new", by decide⟩
  impersonating := 0

/-- The stale byte is taken for the flag. -/
theorem packsFaithfully_counterexample :
    ¬ ∀ (coTaskMemAlloc : Allocator) (request : KerbChangePasswordRequest),
      PacksFaithfully coTaskMemAlloc request := by
  intro h
  have hFlag := changePasswordPacks_iff.mp (h staleMemory aliceRequest).request _ rfl
  exact absurd hFlag (by decide +kernel)

end Example

/-! ## The serializations of a credential -/

theorem unicodeString_eq_ok {value units : WString} (h : Tile.unicodeString value = .ok units) :
    ∃ s, unicodeStringInitWithString (some value) = .ok s ∧ s.units = units := by
  unfold Tile.unicodeString at h
  split_ifs at h with hFits
  obtain rfl := Except.ok.inj h
  exact ⟨⟨cstr value, by omega⟩, unicodeStringInitWithString_iff.mpr ⟨value, rfl, rfl⟩, rfl⟩

theorem pack_eq_ok {S : Surroundings} {serialization packed : Serialization}
    (h : Tile.pack S serialization = .ok packed) : serialization = packed := by
  unfold Tile.pack at h
  split_ifs at h
  cases hPackage : S.negotiatePackage with
  | error status =>
      rw [hPackage] at h
      cases h
  | ok package =>
      rw [hPackage] at h
      exact Except.ok.inj h

/-- The logon that `PackLogon` returns is one that `KerbInteractiveUnlockLogonInit` made. -/
theorem init_of_packLogon {S : Surroundings} {c : CCredential} {serialization : Serialization}
    (h : Tile.packLogon S c = .ok serialization) :
    ∃ message protectedPassword logon,
      kerbInteractiveUnlockLogonInit (some c.configuration.credential.domain)
        (some c.configuration.credential.username) (some protectedPassword)
        c.configuration.scenario = .ok logon ∧
      logon.messageType = submitType message ∧
      serialization = .logon message logon.logonDomainName.units logon.userName.units
        logon.password.units := by
  obtain ⟨protectedPassword, _, h⟩ := Program.except_bind_eq_ok.mp h
  obtain ⟨domain, hDomain, h⟩ := Program.except_bind_eq_ok.mp h
  obtain ⟨username, hUser, h⟩ := Program.except_bind_eq_ok.mp h
  obtain ⟨password, hPassword, h⟩ := Program.except_bind_eq_ok.mp h
  obtain ⟨message, hMessage, h⟩ := Program.except_bind_eq_ok.mp h
  obtain ⟨domainString, hDomainInit, rfl⟩ := unicodeString_eq_ok hDomain
  obtain ⟨userString, hUserInit, rfl⟩ := unicodeString_eq_ok hUser
  obtain ⟨passwordString, hPasswordInit, rfl⟩ := unicodeString_eq_ok hPassword
  refine ⟨message, protectedPassword,
    { messageType := submitType message, logonDomainName := domainString, userName := userString
      password := passwordString, logonId := 0 }, ?_, rfl, (pack_eq_ok h).symm⟩
  rw [kerbInteractiveUnlockLogonInit, hDomainInit, hUserInit, hPasswordInit, hMessage]
  rfl

/-- The request that `PackPasswordChange` returns. -/
theorem request_of_packPasswordChange {S : Surroundings} {c : CCredential}
    {serialization : Serialization} (h : Tile.packPasswordChange S c = .ok serialization) :
    ∃ request,
      passwordChangeRequest (some c.configuration.credential.domain)
        (some c.configuration.credential.username) (some c.configuration.credential.password)
        (some c.configuration.credential.newPassword1) = .ok request ∧
      serialization = .changePassword request.domainName.units request.accountName.units
        request.oldPassword.units request.newPassword.units := by
  unfold Tile.packPasswordChange at h
  dsimp only at h
  split_ifs at h with hRefused
  obtain ⟨domain, hDomain, h⟩ := Program.except_bind_eq_ok.mp h
  obtain ⟨username, hUser, h⟩ := Program.except_bind_eq_ok.mp h
  obtain ⟨oldPassword, hOld, h⟩ := Program.except_bind_eq_ok.mp h
  obtain ⟨newPassword, hNew, h⟩ := Program.except_bind_eq_ok.mp h
  obtain ⟨domainString, hDomainInit, rfl⟩ := unicodeString_eq_ok hDomain
  obtain ⟨userString, hUserInit, rfl⟩ := unicodeString_eq_ok hUser
  obtain ⟨oldString, hOldInit, rfl⟩ := unicodeString_eq_ok hOld
  obtain ⟨newString, hNewInit, rfl⟩ := unicodeString_eq_ok hNew
  refine ⟨{ messageType := kerbChangePasswordMessage, domainName := domainString
            accountName := userString, oldPassword := oldString, newPassword := newString
            impersonating := 0 }, ?_, (pack_eq_ok h).symm⟩
  rw [passwordChangeRequest, hDomainInit, hUserInit, hOldInit, hNewInit]
  rfl

/-- What `GetSerialization` gives out comes from one of its two helpers. -/
theorem packed_of_emitted {S : Surroundings} {outputs : Bool} {t : Tile} {serialization : Serialization}
    (h : (t.getSerialization S outputs).1.serialization = some serialization) :
    Tile.packPasswordChange S t.credential = .ok serialization ∨
      Tile.packLogon S t.credential = .ok serialization := by
  unfold Tile.getSerialization at h
  split_ifs at h
  · cases hPacked : Tile.packPasswordChange S t.credential with
    | error status =>
        rw [hPacked] at h
        cases h
    | ok packed =>
        rw [hPacked] at h
        cases h
        exact .inl rfl
  · cases hPacked : Tile.packLogon S t.credential with
    | error status =>
        rw [hPacked] at h
        cases h
    | ok packed =>
        rw [hPacked] at h
        cases h
        exact .inr rfl

/-- What a tile gives out is a logon that the packer packs so that it can be read back,
or a request for which this is so where the memory holds its flag. -/
theorem emitted_packs (coTaskMemAlloc : Allocator) {S : Surroundings} {outputs : Bool} {t : Tile}
    {serialization : Serialization}
    (h : (t.getSerialization S outputs).1.serialization = some serialization) :
    (∃ message logon, serialization = .logon message logon.logonDomainName.units logon.userName.units
        logon.password.units ∧
      logon.messageType = submitType message ∧ LogonPacks coTaskMemAlloc logon) ∨
    ∃ request, serialization = .changePassword request.domainName.units request.accountName.units
        request.oldPassword.units request.newPassword.units ∧
      (ChangePasswordPacks coTaskMemAlloc request ↔ HoldsFlag coTaskMemAlloc request) := by
  rcases packed_of_emitted h with hPacked | hPacked
  · obtain ⟨request, -, rfl⟩ := request_of_packPasswordChange hPacked
    exact .inr ⟨request, rfl, changePasswordPacks_iff⟩
  · obtain ⟨message, _, logon, hInit, hType, rfl⟩ := init_of_packLogon hPacked
    exact .inl ⟨message, logon, rfl, hType,
      logonPacks coTaskMemAlloc (initializes_of_init hInit).logonId⟩

end Helpers
end WindowsFidoLogon
