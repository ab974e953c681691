import Mathlib.Data.List.TakeWhile
import Mathlib.Logic.Basic

/-!
# Byte strings, wide strings and C strings

Counted strings of bytes and of UTF-16 code units, and the two views C library
functions have of them: `cstr` is the part before the first NUL, which is all
that a function taking a pointer sees, and `wcsicmpEq` is the case-insensitive
comparison `_wcsicmp(a, b) == 0` in the default "C" locale, where only the
ASCII letters have case.

`validUtf8` is the RFC 3629 acceptor, run one byte at a time.
-/

/-- A `std::string`: counted bytes, with no encoding promised. -/
abbrev Bytes : Type := List UInt8

/-- A `std::wstring` on Windows: counted UTF-16 code units. -/
abbrev WString : Type := List UInt16

namespace Text

/-- The bytes of a narrow ASCII literal. -/
def text (literal : String) : Bytes :=
  literal.toByteArray.data.toList

/-- The code units of a wide ASCII literal. -/
def wtext (literal : String) : WString :=
  literal.toList.map fun c => c.toNat.toUInt16

/-- `std::to_string` of an unsigned number. -/
def decimal (n : Nat) : Bytes :=
  (Nat.toDigits 10 n).map fun c => c.toNat.toUInt8

/-! ## C strings -/

/-- What a C function sees of a counted wide string: the units before the
first NUL. -/
def cstr (s : WString) : WString :=
  s.takeWhile (· ≠ 0)

/-- `towlower` in the "C" locale. -/
def towlower (c : UInt16) : UInt16 :=
  if 65 ≤ c ∧ c ≤ 90 then c + 32 else c

/-- `towupper` in the "C" locale. -/
def towupper (c : UInt16) : UInt16 :=
  if 97 ≤ c ∧ c ≤ 122 then c - 32 else c

/-- The key `_wcsicmp` compares: the C string with its case folded. -/
def caseKey (s : WString) : WString :=
  (cstr s).map towlower

/-- `_wcsicmp(a, b) == 0`. -/
def wcsicmpEq (a b : WString) : Bool :=
  caseKey a == caseKey b

theorem wcsicmpEq_iff {a b : WString} : wcsicmpEq a b = true ↔ caseKey a = caseKey b :=
  beq_iff_eq

@[simp] theorem wcsicmpEq_refl (a : WString) : wcsicmpEq a a = true :=
  wcsicmpEq_iff.mpr rfl

theorem wcsicmpEq_symm {a b : WString} (h : wcsicmpEq a b = true) : wcsicmpEq b a = true :=
  wcsicmpEq_iff.mpr (wcsicmpEq_iff.mp h).symm

theorem wcsicmpEq_trans {a b c : WString} (hab : wcsicmpEq a b = true)
    (hbc : wcsicmpEq b c = true) : wcsicmpEq a c = true :=
  wcsicmpEq_iff.mpr ((wcsicmpEq_iff.mp hab).trans (wcsicmpEq_iff.mp hbc))

/-- Equal strings cannot be told apart by the comparison, whatever they are
compared with. -/
theorem wcsicmpEq_congr_right {a b : WString} (h : wcsicmpEq a b = true) (c : WString) :
    wcsicmpEq c a = wcsicmpEq c b := by
  unfold wcsicmpEq
  rw [wcsicmpEq_iff.mp h]

theorem cstr_of_notMem {s : WString} (hs : (0 : UInt16) ∉ s) : cstr s = s :=
  List.takeWhile_eq_self_iff.mpr fun c hc => by
    have hc' : c ≠ 0 := fun h => hs (h ▸ hc)
    simpa using hc'

theorem nul_notMem_cstr (s : WString) : (0 : UInt16) ∉ cstr s := by
  intro h
  simpa using List.mem_takeWhile_imp h

/-! ## UTF-8 -/

/-- Where the acceptor stands between two bytes: the continuation bytes still
owed, and the range the next one must lie in. -/
structure Utf8State where
  owed : Nat
  low : UInt8
  high : UInt8
  deriving DecidableEq

/-- Between two characters. -/
def utf8Start : Utf8State := ⟨0, 0x80, 0xBF⟩

/-- The state after the first byte of a character. -/
def utf8First (b : UInt8) : Option Utf8State :=
  if b ≤ 0x7F then some utf8Start
  else if 0xC2 ≤ b ∧ b ≤ 0xDF then some ⟨1, 0x80, 0xBF⟩
  else if b = 0xE0 then some ⟨2, 0xA0, 0xBF⟩
  else if b = 0xED then some ⟨2, 0x80, 0x9F⟩
  else if 0xE1 ≤ b ∧ b ≤ 0xEF then some ⟨2, 0x80, 0xBF⟩
  else if b = 0xF0 then some ⟨3, 0x90, 0xBF⟩
  else if 0xF1 ≤ b ∧ b ≤ 0xF3 then some ⟨3, 0x80, 0xBF⟩
  else if b = 0xF4 then some ⟨3, 0x80, 0x8F⟩
  else none

/-- One byte; `none` where no UTF-8 text can have it. -/
def utf8Step (q : Utf8State) (b : UInt8) : Option Utf8State :=
  if q.owed = 0 then utf8First b
  else if q.low ≤ b ∧ b ≤ q.high then some ⟨q.owed - 1, 0x80, 0xBF⟩
  else none

/-- The state after a whole string of bytes. -/
def utf8Run : Utf8State → Bytes → Option Utf8State
  | q, [] => some q
  | q, b :: rest => (utf8Step q b).bind fun q' => utf8Run q' rest

/-- The bytes are well-formed UTF-8. -/
def validUtf8 (s : Bytes) : Bool :=
  utf8Run utf8Start s == some utf8Start

theorem utf8Run_append (q : Utf8State) (s t : Bytes) :
    utf8Run q (s ++ t) = (utf8Run q s).bind fun q' => utf8Run q' t := by
  induction s generalizing q with
  | nil => rfl
  | cons b s ih =>
      simp only [List.cons_append, utf8Run]
      cases utf8Step q b with
      | none => rfl
      | some q' => exact ih q'

theorem validUtf8_append {s t : Bytes} (hs : validUtf8 s = true) (ht : validUtf8 t = true) :
    validUtf8 (s ++ t) = true := by
  have hs' : utf8Run utf8Start s = some utf8Start := beq_iff_eq.mp hs
  have ht' : utf8Run utf8Start t = some utf8Start := beq_iff_eq.mp ht
  refine beq_iff_eq.mpr ?_
  rw [utf8Run_append, hs', Option.bind_some, ht']

/-- Seven-bit text is valid as it stands. -/
theorem validUtf8_of_ascii {s : Bytes} (hs : ∀ b ∈ s, b ≤ 0x7F) : validUtf8 s = true := by
  refine beq_iff_eq.mpr ?_
  induction s with
  | nil => rfl
  | cons b s ih =>
      have hb : b ≤ 0x7F := hs b List.mem_cons_self
      have hstep : utf8Step utf8Start b = some utf8Start := by
        simp [utf8Step, utf8Start, utf8First, hb]
      rw [utf8Run, hstep]
      exact ih fun c hc => hs c (List.mem_cons_of_mem _ hc)

theorem validUtf8_decimal (n : Nat) : validUtf8 (decimal n) = true := by
  refine validUtf8_of_ascii fun b hb => ?_
  obtain ⟨c, hc, rfl⟩ := List.mem_map.mp hb
  have hdigit := Nat.isDigit_of_mem_toDigits (by decide) (by decide) hc
  simp only [Char.isDigit, Bool.and_eq_true, decide_eq_true_eq] at hdigit
  have hhigh : c.toNat ≤ 57 := UInt32.le_iff_toNat_le.mp hdigit.2
  show c.toNat.toUInt8.toNat ≤ 0x7F
  rw [Nat.toUInt8_eq, UInt8.toNat_ofNat']
  omega

end Text
