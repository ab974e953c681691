import WindowsFidoLogon.Model.Machine

/-!
# Reading the published policy

`RegistryReader.cpp`, and the encoding of `REG_MULTI_SZ` and `REG_DWORD` data
as the bytes the registry stores.
-/

namespace WindowsFidoLogon
namespace RegistryReader

open Text

/-- UTF-16 code units as little-endian bytes. -/
def toBytes : WString → Bytes
  | [] => []
  | c :: rest => c.toUInt8 :: (c >>> 8).toUInt8 :: toBytes rest

/-- Bytes copied into a buffer of zeroed code units; the last byte of an odd
number of them fills the low half of its unit. -/
def toWords : Bytes → WString
  | [] => []
  | [a] => [a.toUInt16]
  | a :: b :: rest => (a.toUInt16 ||| (b.toUInt16 <<< 8)) :: toWords rest

/-- The buffer `GetMultiSZ` reads into: room for the data and two more units. -/
def multiBuffer (data : Bytes) : WString :=
  toWords data ++ List.replicate (data.length / 2 + 2 - (toWords data).length) 0

/-- The reading loop, with the string at the cursor collected in `current`:
`none` when it would leave the buffer. -/
def readStrings (current : WString) : WString → Option (List WString)
  | [] => none
  | c :: rest =>
      if c = 0 then
        if current = [] then some []
        else (readStrings [] rest).map (current :: ·)
      else readStrings (current ++ [c]) rest

/-- `GetMultiSZ`, when the registry can be read. -/
def getMultiSZ : Option RegistryValue → List WString
  | some { type := .multiSz, data } =>
      if data.length < 2 then [] else (readStrings [] (multiBuffer data)).getD []
  | _ => []

/-- `GetWString`, when the registry can be read. -/
def getWString : Option RegistryValue → WString
  | some { type := .sz, data } =>
      if data.length < 2 then [] else cstr ((toWords data).take (data.length / 2))
  | _ => []

/-- `GetBool`, when the registry can be read.  A `DWORD` is not 0 when one of its bytes
is not. -/
def getBool : Option RegistryValue → Bool
  | none => false
  | some value =>
      if value.type = .dword ∧ value.data.length = 4 then value.data.any (· ≠ 0)
      else getWString (some value) == wtext "1"

end RegistryReader
end WindowsFidoLogon
