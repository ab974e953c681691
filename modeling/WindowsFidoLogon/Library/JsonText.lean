import Mathlib.Data.List.TakeDrop
import WindowsFidoLogon.Library.Json

/-!
# JSON text

An executable printer and parser for `Json`, in the compact form of
`json::dump()`.  `parse_render` is the round trip: a value in the parser's own
form whose strings are UTF-8 is read back from its text.

The parser covers what the printer prints, with white space between the tokens;
it leaves out fractions, exponents and the escapes of characters beyond ASCII.
-/

namespace Json

open Text

/-! ## Printing -/

/-- A lower-case hexadecimal digit. -/
def hexChar (n : UInt8) : UInt8 :=
  if n < 10 then 48 + n else 87 + n

/-- One byte of a string as `dump` writes it. -/
def escapeByte (b : UInt8) : Bytes :=
  if b = 34 then [92, 34]
  else if b = 92 then [92, 92]
  else if b = 8 then [92, 98]
  else if b = 12 then [92, 102]
  else if b = 10 then [92, 110]
  else if b = 13 then [92, 114]
  else if b = 9 then [92, 116]
  else if b < 32 then [92, 117, 48, 48, (48 : UInt8) + (b >>> 4), hexChar (b &&& 15)]
  else [b]

/-- A string between its quotes. -/
def renderString (s : Bytes) : Bytes :=
  34 :: s.flatMap escapeByte ++ [34]

def renderInt : Int → Bytes
  | .ofNat n => decimal n
  | .negSucc n => 45 :: decimal (n + 1)

mutual

/-- The text of a value. -/
def render : Json → Bytes
  | null => text "null"
  | bool true => text "true"
  | bool false => text "false"
  | int n => renderInt n
  | float n => renderInt n ++ text ".0"
  | str s => renderString s
  | arr [] => [91, 93]
  | arr (j :: rest) => 91 :: j.render ++ renderItems rest
  | obj [] => [123, 125]
  | obj ((key, j) :: rest) => 123 :: renderString key ++ 58 :: j.render ++ renderMembers rest

/-- The items of an array after the first one, and its end. -/
def renderItems : List Json → Bytes
  | [] => [93]
  | j :: rest => 44 :: j.render ++ renderItems rest

/-- The members of an object after the first one, and its end. -/
def renderMembers : List (Bytes × Json) → Bytes
  | [] => [125]
  | (key, j) :: rest => 44 :: renderString key ++ 58 :: j.render ++ renderMembers rest

end

/-! ## Parsing -/

def isSpace (b : UInt8) : Bool :=
  b == 32 || b == 9 || b == 10 || b == 13

def skipSpace (input : Bytes) : Bytes :=
  input.dropWhile isSpace

def isDigit (b : UInt8) : Bool :=
  48 ≤ b && b ≤ 57

/-- The value of a hexadecimal digit. -/
def hexValue (b : UInt8) : Option UInt8 :=
  if 48 ≤ b ∧ b ≤ 57 then some (b - 48)
  else if 97 ≤ b ∧ b ≤ 102 then some (b - 87)
  else if 65 ≤ b ∧ b ≤ 70 then some (b - 55)
  else none

/-- The character after a backslash, except `u`. -/
def unescape (e : UInt8) : Option UInt8 :=
  if e = 34 ∨ e = 92 ∨ e = 47 then some e
  else if e = 98 then some 8
  else if e = 102 then some 12
  else if e = 110 then some 10
  else if e = 114 then some 13
  else if e = 116 then some 9
  else none

/-- Put a byte before the string that was read. -/
def push (b : UInt8) (r : Bytes × Bytes) : Bytes × Bytes :=
  (b :: r.1, r.2)

/-- The rest of a string after its opening quote, and what follows it. -/
def parseChars : Bytes → Option (Bytes × Bytes)
  | [] => none
  | b :: rest =>
      if b = 34 then some ([], rest)
      else if b = 92 then
        match rest with
        | [] => none
        | e :: rest =>
            if e = 117 then
              match rest with
              | z :: z' :: h :: l :: rest =>
                  match hexValue h, hexValue l with
                  | some h, some l =>
                      if z = 48 ∧ z' = 48 ∧ h < 8 then
                        (parseChars rest).map (push (h <<< 4 ||| l))
                      else none
                  | _, _ => none
              | _ => none
            else
              match unescape e with
              | some c => (parseChars rest).map (push c)
              | none => none
      else if b < 32 then none
      else (parseChars rest).map (push b)

/-- A string with its quotes; it has to be UTF-8. -/
def parseString : Bytes → Option (Bytes × Bytes)
  | 34 :: rest => (parseChars rest).filter fun r => validUtf8 r.1
  | _ => none

/-- The number its decimal digits stand for. -/
def ofDigits (digits : Bytes) : Nat :=
  digits.foldl (fun n d => 10 * n + (d.toNat - 48)) 0

def parseNat (input : Bytes) : Option (Nat × Bytes) :=
  match input.span isDigit with
  | ([], _) => none
  | (digits, rest) => some (ofDigits digits, rest)

def parseNumber : Bytes → Option (Json × Bytes)
  | 45 :: rest => (parseNat rest).map fun r => (int (-r.1), r.2)
  | input => (parseNat input).map fun r => (int r.1, r.2)

/-- The input after a keyword. -/
def parseWord (word : Bytes) (j : Json) (input : Bytes) : Option (Json × Bytes) :=
  if word.isPrefixOf input then some (j, input.drop word.length) else none

/-- Add a member that a later one of the same name already overrides. -/
def insertField (key : Bytes) (value : Json) : List (Bytes × Json) → List (Bytes × Json)
  | [] => [(key, value)]
  | (k, v) :: rest =>
      if k = key then (k, v) :: rest
      else if keyLt key k then (key, value) :: (k, v) :: rest
      else (k, v) :: insertField key value rest

mutual

/-- A value at the head of the input, and what follows it.  The fuel bounds the
number of nested values and of separators. -/
def parseValue : Nat → Bytes → Option (Json × Bytes)
  | 0, _ => none
  | fuel + 1, input =>
      match skipSpace input with
      | 110 :: rest => parseWord (text "ull") null rest
      | 116 :: rest => parseWord (text "rue") (bool true) rest
      | 102 :: rest => parseWord (text "alse") (bool false) rest
      | 34 :: rest => (parseString (34 :: rest)).map fun r => (str r.1, r.2)
      | 91 :: rest =>
          match skipSpace rest with
          | 93 :: rest => some (arr [], rest)
          | rest => do
            let (j, rest) ← parseValue fuel rest
            let (items, rest) ← parseItems fuel rest
            return (arr (j :: items), rest)
      | 123 :: rest =>
          match skipSpace rest with
          | 125 :: rest => some (obj [], rest)
          | rest => do
            let (fields, rest) ← parseMember fuel rest
            return (obj fields, rest)
      | input => parseNumber input

/-- The rest of an array after an item. -/
def parseItems : Nat → Bytes → Option (List Json × Bytes)
  | 0, _ => none
  | fuel + 1, input =>
      match skipSpace input with
      | 93 :: rest => some ([], rest)
      | 44 :: rest => do
        let (j, rest) ← parseValue fuel rest
        let (items, rest) ← parseItems fuel rest
        return (j :: items, rest)
      | _ => none

/-- A member of an object and the members after it. -/
def parseMember : Nat → Bytes → Option (List (Bytes × Json) × Bytes)
  | 0, _ => none
  | fuel + 1, input => do
      let (key, rest) ← parseString (skipSpace input)
      match skipSpace rest with
      | 58 :: rest =>
        let (j, rest) ← parseValue fuel rest
        match skipSpace rest with
        | 125 :: rest => return (insertField key j [], rest)
        | 44 :: rest =>
          let (fields, rest) ← parseMember fuel rest
          return (insertField key j fields, rest)
        | _ => none
      | _ => none

end

/-- The value that the whole input is the text of. -/
def parse (input : Bytes) : Option Json :=
  match parseValue (input.length + 1) input with
  | some (j, rest) => if skipSpace rest = [] then some j else none
  | none => none

/-! ## Reading back strings and numbers -/

/-- A short escape is read back. -/
theorem parseChars_short {e c : UInt8} (he : e ≠ 117) (hc : unescape e = some c) (rest : Bytes) :
    parseChars (92 :: e :: rest) = (parseChars rest).map (push c) := by
  rw [parseChars.eq_def]
  simp only [if_neg (show (92 : UInt8) ≠ 34 by decide), ↓reduceIte, if_neg he, hc]

/-- A numeric escape is read back. -/
theorem parseChars_numeric {h l x y : UInt8} (hx : hexValue h = some x) (hy : hexValue l = some y)
    (hSmall : x < 8) (rest : Bytes) :
    parseChars (92 :: 117 :: 48 :: 48 :: h :: l :: rest) =
      (parseChars rest).map (push (x <<< 4 ||| y)) := by
  rw [parseChars.eq_def]
  simp only [if_neg (show (92 : UInt8) ≠ 34 by decide), ↓reduceIte, hx, hy, true_and, if_pos hSmall]

theorem parseChars_plain {b : UInt8} (hQuote : b ≠ 34) (hSlash : b ≠ 92) (hControl : ¬ b < 32)
    (rest : Bytes) : parseChars (b :: rest) = (parseChars rest).map (push b) := by
  rw [parseChars.eq_def]
  simp only [if_neg hQuote, if_neg hSlash, if_neg hControl]

/-- The two hexadecimal digits of a control character. -/
theorem hexValue_control : ∀ n < 32,
    hexValue ((48 : UInt8) + (UInt8.ofNat n >>> 4)) = some (UInt8.ofNat n >>> 4) ∧
      hexValue (hexChar (UInt8.ofNat n &&& 15)) = some (UInt8.ofNat n &&& 15) ∧
      UInt8.ofNat n >>> 4 < 8 ∧
      ((UInt8.ofNat n >>> 4) <<< 4 ||| (UInt8.ofNat n &&& 15)) = UInt8.ofNat n := by
  decide

theorem parseChars_escapeByte (b : UInt8) (rest : Bytes) :
    parseChars (escapeByte b ++ rest) = (parseChars rest).map (push b) := by
  unfold escapeByte
  split_ifs with h₁ h₂ h₃ h₄ h₅ h₆ h₇ h₈
  · exact parseChars_short (by decide) (by rw [h₁]; rfl) rest
  · exact parseChars_short (by decide) (by rw [h₂]; rfl) rest
  · exact parseChars_short (by decide) (by rw [h₃]; rfl) rest
  · exact parseChars_short (by decide) (by rw [h₄]; rfl) rest
  · exact parseChars_short (by decide) (by rw [h₅]; rfl) rest
  · exact parseChars_short (by decide) (by rw [h₆]; rfl) rest
  · exact parseChars_short (by decide) (by rw [h₇]; rfl) rest
  · have hRange : b.toNat < 32 := UInt8.lt_iff_toNat_lt.mp h₈
    obtain ⟨hHigh, hLow, hSmall, hJoin⟩ := hexValue_control b.toNat hRange
    rw [UInt8.ofNat_toNat] at hHigh hLow hSmall hJoin
    have hRead := parseChars_numeric hHigh hLow hSmall rest
    rw [hJoin] at hRead
    exact hRead
  · exact parseChars_plain h₁ h₂ h₈ rest

theorem parseChars_escaped (s rest : Bytes) :
    parseChars (s.flatMap escapeByte ++ 34 :: rest) = some (s, rest) := by
  induction s with
  | nil =>
      show parseChars (34 :: rest) = _
      rw [parseChars.eq_def]
      rfl
  | cons b s ih =>
      rw [List.flatMap_cons, List.append_assoc, parseChars_escapeByte, ih]
      rfl

theorem parseString_renderString {s : Bytes} (hs : validUtf8 s = true) (rest : Bytes) :
    parseString (renderString s ++ rest) = some (s, rest) := by
  have hText : renderString s ++ rest = 34 :: (s.flatMap escapeByte ++ 34 :: rest) := by
    simp [renderString]
  rw [hText, parseString, parseChars_escaped]
  simp [Option.filter, hs]

/-! ### Numbers -/

/-- A decimal digit as a byte keeps its code. -/
theorem toNat_of_digit {n : Nat} {c : Char} (hc : c ∈ Nat.toDigits 10 n) :
    48 ≤ c.toNat ∧ c.toNat ≤ 57 ∧ c.toNat.toUInt8.toNat = c.toNat := by
  have hDigit := Nat.isDigit_of_mem_toDigits (by decide) (by decide) hc
  simp only [Char.isDigit, Bool.and_eq_true, decide_eq_true_eq] at hDigit
  have hLow : 48 ≤ c.toNat := UInt32.le_iff_toNat_le.mp hDigit.1
  have hHigh : c.toNat ≤ 57 := UInt32.le_iff_toNat_le.mp hDigit.2
  refine ⟨hLow, hHigh, ?_⟩
  rw [Nat.toUInt8_eq, UInt8.toNat_ofNat']
  omega

theorem isDigit_of_mem_decimal {n : Nat} {d : UInt8} (hd : d ∈ decimal n) : isDigit d = true := by
  obtain ⟨c, hc, rfl⟩ := List.mem_map.mp hd
  obtain ⟨hLow, hHigh, hCode⟩ := toNat_of_digit hc
  simp only [isDigit, Bool.and_eq_true, decide_eq_true_eq, UInt8.le_iff_toNat_le, hCode]
  exact ⟨hLow, hHigh⟩

theorem decimal_ne_nil (n : Nat) : decimal n ≠ [] := by
  simp [decimal, Nat.toDigits_ne_nil]

theorem ofDigits_decimal (n : Nat) : ofDigits (decimal n) = n := by
  have hFold : ∀ (cs : List Char), (∀ c ∈ cs, c.toNat.toUInt8.toNat = c.toNat) → ∀ k,
      (cs.map fun c => c.toNat.toUInt8).foldl (fun n d => 10 * n + (d.toNat - 48)) k =
        Nat.ofDigitChars 10 cs k := by
    intro cs
    induction cs with
    | nil => simp
    | cons c cs ih =>
        intro hCodes k
        rw [List.map_cons, List.foldl_cons, hCodes c List.mem_cons_self,
          ih (fun d hd => hCodes d (List.mem_cons_of_mem _ hd)), Nat.ofDigitChars_cons]
        rfl
  unfold ofDigits decimal
  rw [hFold _ (fun c hc => (toNat_of_digit hc).2.2), Nat.ofDigitChars_ten_toDigits]

/-- The text after a value does not go on with a digit. -/
def Ends (rest : Bytes) : Prop :=
  ∀ b ∈ rest.head?, isDigit b = false

theorem parseNat_decimal (n : Nat) {rest : Bytes} (hRest : Ends rest) :
    parseNat (decimal n ++ rest) = some (n, rest) := by
  have hDigits : ∀ d ∈ decimal n, isDigit d = true := fun d => isDigit_of_mem_decimal
  have hSpan : (decimal n ++ rest).span isDigit = (decimal n, rest) := by
    rw [List.span_eq_takeWhile_dropWhile, List.takeWhile_append_of_pos hDigits,
      List.dropWhile_append_of_pos hDigits]
    cases rest with
    | nil => simp
    | cons b rest =>
        have hb : isDigit b = false := hRest b rfl
        simp [hb]
  unfold parseNat
  rw [hSpan]
  cases hn : decimal n with
  | nil => exact absurd hn (decimal_ne_nil n)
  | cons d ds =>
      show some (ofDigits (d :: ds), rest) = _
      rw [← hn, ofDigits_decimal]

theorem parseNumber_renderInt (n : Int) {rest : Bytes} (hRest : Ends rest) :
    parseNumber (renderInt n ++ rest) = some (int n, rest) := by
  cases n with
  | ofNat n =>
      show parseNumber (decimal n ++ rest) = _
      cases hn : decimal n with
      | nil => exact absurd hn (decimal_ne_nil n)
      | cons d ds =>
          have hDigit : isDigit d = true := isDigit_of_mem_decimal (by rw [hn]; exact List.mem_cons_self)
          have hRead := parseNat_decimal n hRest
          rw [hn] at hRead
          rw [List.cons_append] at hRead ⊢
          rw [parseNumber.eq_2 _ (fun _ h => by cases h; cases hDigit), hRead]
          rfl
  | negSucc n =>
      show (parseNat (decimal (n + 1) ++ rest)).map _ = _
      rw [parseNat_decimal _ hRest]
      rfl

/-! ## The round trip -/

theorem skipSpace_cons {b : UInt8} (hb : isSpace b = false) (rest : Bytes) :
    skipSpace (b :: rest) = b :: rest := by
  simp [skipSpace, hb]

theorem parseValue_number {b : UInt8} (hb : isDigit b = true ∨ b = 45) (fuel : Nat) (rest : Bytes) :
    parseValue (fuel + 1) (b :: rest) = parseNumber (b :: rest) := by
  have hSpace : isSpace b = false := by
    rcases hb with hb | rfl
    · simp only [isDigit, Bool.and_eq_true, decide_eq_true_eq, UInt8.le_iff_toNat_le] at hb
      simp only [isSpace, Bool.or_eq_false_iff, beq_eq_false_iff_ne]
      refine ⟨⟨⟨?_, ?_⟩, ?_⟩, ?_⟩ <;> (rintro rfl; simp at hb)
    · rfl
  rw [parseValue.eq_def]
  simp only [skipSpace_cons hSpace]
  split <;> first | rfl | (rename_i h; cases h; simp [isDigit] at hb)

/-- Members in increasing order are put back in that order. -/
theorem insertField_of_precedes {key : Bytes} {j : Json} {fields : List (Bytes × Json)}
    (h : precedes key fields = true) : insertField key j fields = (key, j) :: fields := by
  cases fields with
  | nil => rfl
  | cons f fields =>
      obtain ⟨next, v⟩ := f
      have hLt : keyLt key next = true := h
      have hNe : next ≠ key := by
        rintro rfl
        rw [keyLt_irrefl] at hLt
        cases hLt
      rw [insertField, if_neg hNe, if_pos hLt]

/-- Members as the parser keeps them: in increasing order, and of those with one name the
last. -/
def sortFields (fields : List (Bytes × Json)) : List (Bytes × Json) :=
  fields.foldr (fun f rest => insertField f.1 f.2 rest) []

theorem sortFields_of_canonical {fields : List (Bytes × Json)} (h : canonicalFields fields = true) :
    sortFields fields = fields := by
  induction fields with
  | nil => rfl
  | cons f fields ih =>
      simp only [canonicalFields, Bool.and_eq_true] at h
      show insertField f.1 f.2 (sortFields fields) = f :: fields
      rw [ih h.2.2, insertField_of_precedes h.1]

theorem canonical_of_canonicalFields {fields : List (Bytes × Json)}
    (h : canonicalFields fields = true) : ∀ f ∈ fields, f.2.canonical = true := by
  induction fields with
  | nil => simp
  | cons f fields ih =>
      simp only [canonicalFields, Bool.and_eq_true] at h
      exact List.forall_mem_cons.mpr ⟨h.2.1, ih h.2.2⟩

/-- The text of a number starts with a digit or a sign. -/
theorem renderInt_head (n : Int) :
    ∃ b t, renderInt n = b :: t ∧ (isDigit b = true ∨ b = 45) := by
  cases n with
  | ofNat n =>
      cases hn : decimal n with
      | nil => exact absurd hn (decimal_ne_nil n)
      | cons d ds =>
          exact ⟨d, ds, hn, .inl (isDigit_of_mem_decimal (by rw [hn]; exact List.mem_cons_self))⟩
  | negSucc n => exact ⟨45, _, rfl, .inr rfl⟩

theorem digit_head {b : UInt8} (hb : isDigit b = true ∨ b = 45) : isSpace b = false ∧ b ≠ 93 := by
  rcases hb with hb | rfl
  · simp only [isDigit, Bool.and_eq_true, decide_eq_true_eq, UInt8.le_iff_toNat_le] at hb
    simp only [isSpace, Bool.or_eq_false_iff, beq_eq_false_iff_ne]
    refine ⟨⟨⟨⟨?_, ?_⟩, ?_⟩, ?_⟩, ?_⟩ <;> (rintro rfl; simp at hb)
  · exact ⟨rfl, by decide⟩

/-- The text of a value starts neither with white space nor with the end of an
array. -/
theorem render_head (j : Json) : ∃ b t, j.render = b :: t ∧ isSpace b = false ∧ b ≠ 93 := by
  cases j with
  | null => exact ⟨110, _, rfl, rfl, by decide⟩
  | bool b => cases b with
    | true => exact ⟨116, _, rfl, rfl, by decide⟩
    | false => exact ⟨102, _, rfl, rfl, by decide⟩
  | int n =>
      obtain ⟨b, t, hn, hb⟩ := renderInt_head n
      exact ⟨b, t, by rw [render, hn], digit_head hb⟩
  | float n =>
      obtain ⟨b, t, hn, hb⟩ := renderInt_head n
      exact ⟨b, t ++ text ".0", by rw [render, hn]; rfl, digit_head hb⟩
  | str s => exact ⟨34, _, rfl, rfl, by decide⟩
  | arr items => cases items with
    | nil => exact ⟨91, _, rfl, rfl, by decide⟩
    | cons j items => exact ⟨91, _, by rw [render]; rfl, rfl, by decide⟩
  | obj fields => cases fields with
    | nil => exact ⟨123, _, rfl, rfl, by decide⟩
    | cons f fields => exact ⟨123, _, by rw [render]; rfl, rfl, by decide⟩

theorem ends_renderItems (items : List Json) (rest : Bytes) : Ends (renderItems items ++ rest) := by
  cases items with
  | nil => rintro b ⟨⟩; rfl
  | cons j items => rw [renderItems]; rintro b ⟨⟩; rfl

theorem ends_renderMembers (fields : List (Bytes × Json)) (rest : Bytes) :
    Ends (renderMembers fields ++ rest) := by
  cases fields with
  | nil => rintro b ⟨⟩; rfl
  | cons f fields => rw [renderMembers]; rintro b ⟨⟩; rfl

theorem skipSpace_renderString (s rest : Bytes) :
    skipSpace (renderString s ++ rest) = renderString s ++ rest :=
  skipSpace_cons rfl _

theorem parseValue_array {b : UInt8} (hSpace : isSpace b = false) (hClose : b ≠ 93) (fuel : Nat)
    (rest : Bytes) :
    parseValue (fuel + 1) (91 :: b :: rest) = (parseValue fuel (b :: rest)).bind fun r =>
      (parseItems fuel r.2).bind fun q => some (arr (r.1 :: q.1), q.2) := by
  rw [parseValue.eq_def]
  simp only [skipSpace_cons (show isSpace 91 = false from rfl), skipSpace_cons hSpace]
  split
  · rename_i h
    cases h
    exact absurd rfl hClose
  · rfl

theorem parseValue_object (fuel : Nat) (key rest : Bytes) :
    parseValue (fuel + 1) (123 :: (renderString key ++ rest)) =
      (parseMember fuel (renderString key ++ rest)).bind fun r => some (obj r.1, r.2) := by
  rw [parseValue.eq_def]
  rfl

mutual

/-- A printed value is read back, whatever follows it. -/
theorem parseValue_render : ∀ (j : Json), j.canonical = true → j.allStrings validUtf8 = true →
    ∀ fuel rest, j.render.length ≤ fuel → Ends rest →
      parseValue fuel (j.render ++ rest) = some (j, rest)
  | j, _, _, 0, _, hFuel, _ => by
      obtain ⟨b, t, hj, _⟩ := render_head j
      rw [hj] at hFuel
      simp at hFuel
  | null, _, _, fuel + 1, rest, _, _ => by
      rw [parseValue.eq_def]
      rfl
  | bool true, _, _, fuel + 1, rest, _, _ => by
      rw [parseValue.eq_def]
      rfl
  | bool false, _, _, fuel + 1, rest, _, _ => by
      rw [parseValue.eq_def]
      rfl
  | int n, _, _, fuel + 1, rest, _, hRest => by
      obtain ⟨b, t, hn, hb⟩ := renderInt_head n
      have hRead := parseNumber_renderInt n hRest
      rw [hn, List.cons_append] at hRead
      rw [render, hn, List.cons_append, parseValue_number hb, hRead]
  | float n, hCanonical, _, _, _, _, _ => by
      cases hCanonical
  | str s, _, hStrings, fuel + 1, rest, _, _ => by
      have hRead := parseString_renderString hStrings rest
      rw [parseValue.eq_def]
      show (parseString (renderString s ++ rest)).map _ = _
      rw [hRead]
      rfl
  | arr [], _, _, fuel + 1, rest, _, _ => by
      rw [parseValue.eq_def]
      rfl
  | arr (j :: items), hCanonical, hStrings, fuel + 1, rest, hFuel, hRest => by
      rw [canonical, canonicalList, Bool.and_eq_true] at hCanonical
      rw [allStrings, allStringsList, Bool.and_eq_true] at hStrings
      simp only [render, List.length_cons, List.length_append] at hFuel
      obtain ⟨b, t, hj, hSpace, hClose⟩ := render_head j
      have hHead := parseValue_render j hCanonical.1 hStrings.1 fuel (renderItems items ++ rest)
        (by omega) (ends_renderItems items rest)
      have hTail := parseItems_renderItems items hCanonical.2 hStrings.2 fuel rest (by omega)
      have hText : (arr (j :: items)).render ++ rest =
          91 :: b :: (t ++ (renderItems items ++ rest)) := by
        simp [render, hj]
      rw [hj, List.cons_append] at hHead
      rw [hText, parseValue_array hSpace hClose, hHead, Option.bind_some, hTail, Option.bind_some]
  | obj [], _, _, fuel + 1, rest, _, _ => by
      rw [parseValue.eq_def]
      rfl
  | obj ((key, j) :: fields), hCanonical, hStrings, fuel + 1, rest, hFuel, _ => by
      have hText : (obj ((key, j) :: fields)).render =
          123 :: (renderMembers ((key, j) :: fields)).tail := by
        simp [render, renderMembers]
      have hRead := parseMember_renderMembers ((key, j) :: fields) (by simp)
        (canonical_of_canonicalFields hCanonical) hStrings fuel rest
        (by rw [hText] at hFuel; simpa using hFuel)
      rw [sortFields_of_canonical hCanonical] at hRead
      rw [hText, List.cons_append]
      simp only [renderMembers, List.cons_append, List.tail_cons, List.append_assoc] at hRead ⊢
      rw [parseValue_object, hRead, Option.bind_some]

theorem parseItems_renderItems : ∀ (items : List Json), canonicalList items = true →
    allStringsList validUtf8 items = true → ∀ fuel rest, (renderItems items).length ≤ fuel →
      parseItems fuel (renderItems items ++ rest) = some (items, rest)
  | [], _, _, 0, rest, hFuel => by
      simp [renderItems] at hFuel
  | [], _, _, fuel + 1, rest, _ => by
      rw [parseItems.eq_def]
      rfl
  | j :: items, hCanonical, hStrings, 0, rest, hFuel => by
      simp [renderItems] at hFuel
  | j :: items, hCanonical, hStrings, fuel + 1, rest, hFuel => by
      rw [canonicalList, Bool.and_eq_true] at hCanonical
      rw [allStringsList, Bool.and_eq_true] at hStrings
      simp only [renderItems, List.length_cons, List.length_append] at hFuel
      have hHead := parseValue_render j hCanonical.1 hStrings.1 fuel (renderItems items ++ rest)
        (by omega) (ends_renderItems items rest)
      have hTail := parseItems_renderItems items hCanonical.2 hStrings.2 fuel rest (by omega)
      rw [renderItems, parseItems.eq_def]
      show ((parseValue fuel (j.render ++ renderItems items ++ rest)).bind fun r => _) = _
      rw [List.append_assoc, hHead]
      show ((parseItems fuel (renderItems items ++ rest)).bind fun r => _) = _
      rw [hTail]
      rfl

theorem parseMember_renderMembers : ∀ (fields : List (Bytes × Json)), fields ≠ [] →
    (∀ f ∈ fields, f.2.canonical = true) → allStringsFields validUtf8 fields = true →
    ∀ fuel rest, (renderMembers fields).tail.length ≤ fuel →
      parseMember fuel ((renderMembers fields).tail ++ rest) = some (sortFields fields, rest)
  | [], hNonempty, _, _, _, _, _ => absurd rfl hNonempty
  | (key, j) :: fields, _, _, _, 0, _, hFuel => by
      simp [renderMembers, renderString] at hFuel
  | (key, j) :: fields, _, hCanonical, hStrings, fuel + 1, rest, hFuel => by
      rw [List.forall_mem_cons] at hCanonical
      simp only [allStringsFields, Bool.and_eq_true] at hStrings
      simp only [renderMembers, List.tail_cons, List.cons_append, List.length_append,
        List.length_cons] at hFuel
      have hValue := parseValue_render j hCanonical.1 hStrings.2.1 fuel
        (renderMembers fields ++ rest) (by omega) (ends_renderMembers fields rest)
      have hText : (renderMembers ((key, j) :: fields)).tail ++ rest =
          renderString key ++ (58 :: (j.render ++ (renderMembers fields ++ rest))) := by
        simp [renderMembers]
      have hKey := parseString_renderString hStrings.1
        (58 :: (j.render ++ (renderMembers fields ++ rest)))
      rw [hText, parseMember.eq_def]
      simp only [skipSpace_renderString, hKey]
      show ((parseValue fuel (j.render ++ (renderMembers fields ++ rest))).bind fun r => _) = _
      rw [hValue]
      cases hFields : fields with
      | nil => rfl
      | cons f more =>
          rw [← hFields]
          have hTail := parseMember_renderMembers fields (by simp [hFields]) hCanonical.2
            hStrings.2.2 fuel rest (by simp; omega)
          have hComma : renderMembers fields ++ rest = 44 :: ((renderMembers fields).tail ++ rest) := by
            rw [hFields]
            simp [renderMembers]
          rw [hComma]
          show ((parseMember fuel ((renderMembers fields).tail ++ rest)).bind fun r => _) = _
          rw [hTail]
          rfl

end

/-- Parsing undoes printing on values in the parser's own form. -/
theorem parse_render {j : Json} (hCanonical : j.canonical = true)
    (hStrings : j.allStrings validUtf8 = true) : parse j.render = some j := by
  have hRead := parseValue_render j hCanonical hStrings (j.render.length + 1) []
    (Nat.le_succ _) (by rintro b ⟨⟩)
  rw [List.append_nil] at hRead
  unfold parse
  rw [hRead]
  rfl

/-- The members of an object may come in any order. -/
theorem parse_render_obj {fields : List (Bytes × Json)} (hNonempty : fields ≠ [])
    (hCanonical : ∀ f ∈ fields, f.2.canonical = true)
    (hStrings : allStringsFields validUtf8 fields = true) :
    parse (obj fields).render = some (obj (sortFields fields)) := by
  obtain ⟨⟨key, j⟩, rest, rfl⟩ := List.exists_cons_of_ne_nil hNonempty
  have hText : (obj ((key, j) :: rest)).render = 123 :: (renderMembers ((key, j) :: rest)).tail := by
    simp [render, renderMembers]
  have hMembers : (renderMembers ((key, j) :: rest)).tail =
      renderString key ++ (58 :: (j.render ++ renderMembers rest)) := by
    simp [renderMembers]
  have hRead := parseMember_renderMembers ((key, j) :: rest) hNonempty hCanonical hStrings
    (renderMembers ((key, j) :: rest)).tail.length.succ [] (Nat.le_succ _)
  rw [List.append_nil, hMembers] at hRead
  unfold parse
  rw [hText, List.length_cons, hMembers, parseValue_object, hRead]
  rfl

/-! ## What was read is UTF-8 -/

theorem validUtf8_of_parseString {input : Bytes} {r : Bytes × Bytes}
    (h : parseString input = some r) : validUtf8 r.1 = true := by
  unfold parseString at h
  split at h
  · exact (Option.filter_eq_some_iff.mp h).2
  · cases h

theorem allStrings_of_parseNumber {input : Bytes} {r : Json × Bytes}
    (h : parseNumber input = some r) : r.1.allStrings validUtf8 = true := by
  unfold parseNumber at h
  split at h <;>
    · obtain ⟨q, _, rfl⟩ := Option.map_eq_some_iff.mp h
      rfl

theorem eq_of_parseWord {word : Bytes} {j : Json} {input : Bytes} {r : Json × Bytes}
    (h : parseWord word j input = some r) : r.1 = j := by
  unfold parseWord at h
  split_ifs at h
  cases h
  rfl

theorem allStringsFields_insertField {p : Bytes → Bool} {key : Bytes} {v : Json}
    {fields : List (Bytes × Json)} (hKey : p key = true) (hv : v.allStrings p = true)
    (hFields : allStringsFields p fields = true) :
    allStringsFields p (insertField key v fields) = true := by
  induction fields with
  | nil => simp [insertField, allStringsFields, hKey, hv]
  | cons f rest ih =>
      obtain ⟨k, w⟩ := f
      simp only [allStringsFields, Bool.and_eq_true] at hFields
      obtain ⟨hk, hw, hRest⟩ := hFields
      simp only [insertField]
      split_ifs
      · simp [allStringsFields, hk, hw, hRest]
      · simp [allStringsFields, hKey, hv, hk, hw, hRest]
      · simp [allStringsFields, hk, hw, ih hRest]

/-- What the three parsing functions return has UTF-8 strings only; by induction
on the fuel they share. -/
theorem allStrings_of_fuel (fuel : Nat) :
    (∀ input r, parseValue fuel input = some r → r.1.allStrings validUtf8 = true) ∧
    (∀ input r, parseItems fuel input = some r → allStringsList validUtf8 r.1 = true) ∧
    (∀ input r, parseMember fuel input = some r → allStringsFields validUtf8 r.1 = true) := by
  induction fuel with
  | zero =>
      refine ⟨fun _ _ h => ?_, fun _ _ h => ?_, fun _ _ h => ?_⟩
      · rw [parseValue] at h; cases h
      · rw [parseItems] at h; cases h
      · rw [parseMember] at h; cases h
  | succ fuel ih =>
      obtain ⟨ihValue, ihItems, ihMember⟩ := ih
      refine ⟨fun input r h => ?_, fun input r h => ?_, fun input r h => ?_⟩
      · rw [parseValue.eq_def] at h
        dsimp only at h
        split at h
        · rw [eq_of_parseWord h]
          rfl
        · rw [eq_of_parseWord h]
          rfl
        · rw [eq_of_parseWord h]
          rfl
        · obtain ⟨q, hq, rfl⟩ := Option.map_eq_some_iff.mp h
          exact validUtf8_of_parseString hq
        · split at h
          · cases h
            rfl
          · obtain ⟨q, hq, h⟩ := Option.bind_eq_some_iff.mp h
            obtain ⟨q', hq', h⟩ := Option.bind_eq_some_iff.mp h
            cases h
            show (_ && _) = true
            rw [ihValue _ _ hq, ihItems _ _ hq']
            rfl
        · split at h
          · cases h
            rfl
          · obtain ⟨q, hq, h⟩ := Option.bind_eq_some_iff.mp h
            cases h
            exact ihMember _ _ hq
        · exact allStrings_of_parseNumber h
      · rw [parseItems.eq_def] at h
        dsimp only at h
        split at h
        · cases h
          rfl
        · obtain ⟨q, hq, h⟩ := Option.bind_eq_some_iff.mp h
          obtain ⟨q', hq', h⟩ := Option.bind_eq_some_iff.mp h
          cases h
          show (_ && _) = true
          rw [ihValue _ _ hq, ihItems _ _ hq']
          rfl
        · cases h
      · rw [parseMember.eq_def] at h
        dsimp only at h
        obtain ⟨⟨key, rest⟩, hKey, h⟩ := Option.bind_eq_some_iff.mp h
        dsimp only at h
        split at h
        · obtain ⟨q, hq, h⟩ := Option.bind_eq_some_iff.mp h
          split at h
          · cases h
            exact allStringsFields_insertField (validUtf8_of_parseString hKey) (ihValue _ _ hq) rfl
          · obtain ⟨q', hq', h⟩ := Option.bind_eq_some_iff.mp h
            cases h
            exact allStringsFields_insertField (validUtf8_of_parseString hKey) (ihValue _ _ hq)
              (ihMember _ _ hq')
          · cases h
        · cases h

/-- Every string of a value that was read is UTF-8. -/
theorem allStrings_of_parse {input : Bytes} {j : Json} (h : parse input = some j) :
    j.allStrings validUtf8 = true := by
  unfold parse at h
  split at h
  · rename_i k rest hk
    split_ifs at h
    cases h
    exact (allStrings_of_fuel _).1 _ _ hk
  · cases h

/-! ## Lengths -/

/-- What a string takes between its quotes. -/
def escapedLength (s : Bytes) : Nat :=
  (s.flatMap escapeByte).length

theorem length_renderString (s : Bytes) : (renderString s).length = escapedLength s + 2 := by
  simp [renderString, escapedLength]

/-- A byte that is printed as it is. -/
def isPlain (b : UInt8) : Bool :=
  32 ≤ b && b != 34 && b != 92

theorem escapeByte_of_isPlain {b : UInt8} (h : isPlain b = true) : escapeByte b = [b] := by
  simp only [isPlain, Bool.and_eq_true, bne_iff_ne, decide_eq_true_eq] at h
  obtain ⟨⟨hPrintable, hQuote⟩, hSlash⟩ := h
  have hAbove : ∀ c : UInt8, c < 32 → b ≠ c := fun c hc hSame =>
    UInt8.lt_irrefl c (UInt8.lt_of_lt_of_le hc (hSame ▸ hPrintable))
  unfold escapeByte
  rw [if_neg hQuote, if_neg hSlash, if_neg (hAbove 8 (by decide)), if_neg (hAbove 12 (by decide)),
    if_neg (hAbove 10 (by decide)), if_neg (hAbove 13 (by decide)), if_neg (hAbove 9 (by decide)),
    if_neg (UInt8.not_lt.mpr hPrintable)]

theorem escapedLength_of_isPlain {s : Bytes} (h : ∀ b ∈ s, isPlain b = true) :
    escapedLength s = s.length := by
  unfold escapedLength
  induction s with
  | nil => rfl
  | cons b s ih =>
      rw [List.forall_mem_cons] at h
      rw [List.flatMap_cons, escapeByte_of_isPlain h.1, List.length_append, ih h.2,
        List.length_singleton, List.length_cons, Nat.add_comm]

theorem escapedLength_append (s t : Bytes) :
    escapedLength (s ++ t) = escapedLength s + escapedLength t := by
  simp [escapedLength]

theorem length_renderItems (items : List Json) :
    (renderItems items).length = 1 + (items.map fun j => j.render.length + 1).sum := by
  induction items with
  | nil => rfl
  | cons j rest ih =>
      simp only [renderItems, List.length_cons, List.length_append, List.map_cons, List.sum_cons, ih]
      omega

theorem length_render_arr (items : List Json) :
    (arr items).render.length = max 2 (1 + (items.map fun j => j.render.length + 1).sum) := by
  cases items with
  | nil => rfl
  | cons j rest =>
      simp only [render, List.length_cons, List.length_append, length_renderItems, List.map_cons,
        List.sum_cons]
      omega

/-- What the members of an object take, each with its colon and one separator. -/
def membersLength (fields : List (Bytes × Json)) : Nat :=
  (fields.map fun f => escapedLength f.1 + f.2.render.length + 4).sum

@[simp] theorem membersLength_nil : membersLength [] = 0 := rfl

@[simp] theorem membersLength_cons (key : Bytes) (j : Json) (rest : List (Bytes × Json)) :
    membersLength ((key, j) :: rest) =
      escapedLength key + j.render.length + 4 + membersLength rest := rfl

theorem length_renderMembers (fields : List (Bytes × Json)) :
    (renderMembers fields).length = 1 + membersLength fields := by
  induction fields with
  | nil => rfl
  | cons f rest ih =>
      obtain ⟨key, j⟩ := f
      simp only [renderMembers, List.length_cons, List.length_append, length_renderString,
        membersLength_cons, ih]
      omega

theorem length_render_obj (key : Bytes) (j : Json) (rest : List (Bytes × Json)) :
    (obj ((key, j) :: rest)).render.length = 1 + membersLength ((key, j) :: rest) := by
  simp only [render, List.length_cons, List.length_append, length_renderString,
    length_renderMembers, membersLength_cons]
  omega

theorem length_render_str (s : Bytes) : (str s).render.length = escapedLength s + 2 := by
  rw [render, length_renderString]

end Json
