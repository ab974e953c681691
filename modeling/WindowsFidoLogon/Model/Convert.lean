import WindowsFidoLogon.Model.Platform

/-!
# Text conversions and base64

`Convert.cpp`.  The decoder keeps a 32-bit accumulator that is shifted without
being masked, as the source does.
-/

namespace WindowsFidoLogon
namespace Convert

open Text

/-- `std::numeric_limits<int>::max()` -/
def intMax : Nat := 2147483647

/-- `Convert::ToString`: UTF-16 to UTF-8, empty when it cannot be converted. -/
def toString (P : Platform) (value : WString) : Bytes :=
  if value.isEmpty then []
  else if value.length > intMax then []
  else (P.wideCharToMultiByte value).getD []

/-- `Convert::ToWString`: UTF-8 to UTF-16, empty when it cannot be converted. -/
def toWString (P : Platform) (value : Bytes) : WString :=
  if value.isEmpty then []
  else if value.length > intMax then []
  else (P.multiByteToWideChar value).getD []

/-! ## Decoding -/

def base64Value (value : UInt8) : Option UInt32 :=
  if 65 ≤ value ∧ value ≤ 90 then some (value.toUInt32 - 65)
  else if 97 ≤ value ∧ value ≤ 122 then some (value.toUInt32 - 97 + 26)
  else if 48 ≤ value ∧ value ≤ 57 then some (value.toUInt32 - 48 + 52)
  else if value = 43 then some 62
  else if value = 47 then some 63
  else none

/-- The locals of the decoding loop. -/
structure DecodeState where
  accumulator : UInt32 := 0
  bits : Nat := 0
  lastValue : UInt32 := 0
  decoded : Bytes := []

/-- One character of the decoding loop. -/
def decodeStep (s : DecodeState) (value : UInt32) : DecodeState :=
  let accumulator := (s.accumulator <<< 6) ||| value
  let bits := s.bits + 6
  if 8 ≤ bits then
    { accumulator
      bits := bits - 8
      lastValue := value
      decoded := s.decoded ++ [((accumulator >>> (bits - 8).toUInt32) &&& 0xff).toUInt8] }
  else
    { accumulator, bits, lastValue := value, decoded := s.decoded }

/-- The decoding loop; `none` at the first character outside the alphabet. -/
def decodeLoop : DecodeState → Bytes → Option DecodeState
  | s, [] => some s
  | s, c :: rest =>
      match base64Value c with
      | none => none
      | some value => decodeLoop (decodeStep s value) rest

/-- The number of `=` at the end of the input. -/
def paddingLength (input : Bytes) : Nat :=
  (input.reverse.takeWhile (· == 61)).length

/-- `DecodeBase64Strict`: empty when the input is not canonical base64. -/
def decodeBase64Strict (input : Bytes) : Bytes :=
  if input.isEmpty then []
  else
    let padding := paddingLength input
    let encodedLength := input.length - padding
    if padding > 2 then []
    else if encodedLength % 4 = 1 then []
    else if padding ≠ 0 ∧ input.length % 4 ≠ 0 then []
    else if padding ≠ 0 ∧ (4 - encodedLength % 4) % 4 ≠ padding then []
    else
      match decodeLoop {} (input.take encodedLength) with
      | none => []
      | some s =>
          -- Unused trailing bits must be zero, or the text would not be the only one.
          if (encodedLength % 4 = 2 ∧ s.lastValue &&& 0x0f ≠ 0) ∨
              (encodedLength % 4 = 3 ∧ s.lastValue &&& 0x03 ≠ 0) then []
          else s.decoded

def base64Decode (value : Bytes) : Bytes :=
  decodeBase64Strict value

/-- One character of the URL alphabet in the standard one. -/
def fromUrlAlphabet (c : UInt8) : Option UInt8 :=
  if (65 ≤ c ∧ c ≤ 90) ∨ (97 ≤ c ∧ c ≤ 122) ∨ (48 ≤ c ∧ c ≤ 57) then some c
  else if c = 45 then some 43
  else if c = 95 then some 47
  else none

/-- `Convert::Base64URLDecode`: empty on anything but canonical, unpadded text. -/
def base64URLDecode (value : Bytes) : Bytes :=
  if value.isEmpty ∨ value.length % 4 = 1 then []
  else
    match value.mapM fromUrlAlphabet with
    | none => []
    | some base64 => decodeBase64Strict base64

/-! ## Encoding -/

/-- `kBase64Alphabet[index]` -/
def base64Char (index : UInt32) : UInt8 :=
  if index < 26 then index.toUInt8 + 65
  else if index < 52 then index.toUInt8 - 26 + 97
  else if index < 62 then index.toUInt8 - 52 + 48
  else if index = 62 then 43
  else 47

/-- The three bytes of a block in one 24-bit number. -/
def encodeBlock (first second third : UInt8) : UInt32 :=
  (first.toUInt32 <<< 16) ||| (second.toUInt32 <<< 8) ||| third.toUInt32

/-- The `=` of a padded encoding. -/
def pad (padded : Bool) (count : Nat) : Bytes :=
  if padded then List.replicate count 61 else []

def base64Encode (padded : Bool) : Bytes → Bytes
  | [] => []
  | [a] =>
      let block := encodeBlock a 0 0
      [base64Char ((block >>> 18) &&& 0x3f), base64Char ((block >>> 12) &&& 0x3f)] ++ pad padded 2
  | [a, b] =>
      let block := encodeBlock a b 0
      [base64Char ((block >>> 18) &&& 0x3f), base64Char ((block >>> 12) &&& 0x3f),
        base64Char ((block >>> 6) &&& 0x3f)] ++ pad padded 1
  | a :: b :: c :: rest =>
      let block := encodeBlock a b c
      base64Char ((block >>> 18) &&& 0x3f) :: base64Char ((block >>> 12) &&& 0x3f) ::
        base64Char ((block >>> 6) &&& 0x3f) :: base64Char (block &&& 0x3f) ::
        base64Encode padded rest

/-- One character of the standard alphabet in the URL one. -/
def toUrlAlphabet (c : UInt8) : UInt8 :=
  if c = 43 then 45 else if c = 47 then 95 else c

def base64URLEncode (data : Bytes) (padded : Bool := false) : Bytes :=
  (base64Encode padded data).map toUrlAlphabet

end Convert
end WindowsFidoLogon
