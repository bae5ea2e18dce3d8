import CameraScript.Json.Value

/-!
JSON text as a sequence of tokens. Each reader takes a value from the front of the
bytes and returns the bytes that follow; blanks between tokens are skipped.
-/

namespace CameraScript.Json

inductive Token where
  | openBrace
  | closeBrace
  | openBracket
  | closeBracket
  | comma
  | colon
  | null
  | bool (value : Bool)
  | number (numeral : Numeral)
  | string (pieces : List Piece)
  deriving DecidableEq, Repr

/-- Only four bytes are blanks, whatever is blank in other text. -/
def isSpace (byte : UInt8) : Bool :=
  byte == 0x20 || byte == 0x0A || byte == 0x09 || byte == 0x0D

def isDigit (byte : UInt8) : Bool :=
  0x30 ≤ byte && byte ≤ 0x39

def charOf (byte : UInt8) : Char :=
  Char.ofNat byte.toNat

def readCode (first second third fourth : UInt8) : Option UInt16 := do
  let a ← Number.digit? 16 (charOf first)
  let b ← Number.digit? 16 (charOf second)
  let c ← Number.digit? 16 (charOf third)
  let d ← Number.digit? 16 (charOf fourth)
  return UInt16.ofNat (((a * 16 + b) * 16 + c) * 16 + d)

/-- The rest of a string whose opening quote has been taken. Control bytes must not
stand in it. -/
def readString (read : List Piece) : List UInt8 → Option (List Piece × List UInt8)
  | [] => none
  | byte :: rest =>
      if byte = 0x22 then some (read.reverse, rest)
      else if byte = 0x5C then
        match rest with
        | [] => none
        | letter :: after =>
            if letter = 0x75 then
              match after with
              | first :: second :: third :: fourth :: suffix =>
                  match readCode first second third fourth with
                  | some code => readString (.unit code :: read) suffix
                  | none => none
              | _ => none
            else if isEscapeLetter letter then readString (.escape letter :: read) after
            else none
      else if byte < 0x20 then none
      else readString (.byte byte :: read) rest

def readDigits (input : List UInt8) : Option (List Char × List UInt8) :=
  match input.takeWhile isDigit with
  | [] => none
  | digits => some (digits.map charOf, input.dropWhile isDigit)

def readFraction : List UInt8 → Option (Bool × List UInt8)
  | [] => some (false, [])
  | byte :: rest =>
      if byte = 0x2E then (readDigits rest).map fun (_, suffix) => (true, suffix)
      else some (false, byte :: rest)

def readPower : List UInt8 → Option (List Char × List UInt8)
  | [] => none
  | byte :: rest =>
      if byte = 0x2B ∨ byte = 0x2D then readDigits rest else readDigits (byte :: rest)

def readExponent : List UInt8 → Option (Bool × List UInt8)
  | [] => some (false, [])
  | byte :: rest =>
      if byte = 0x65 ∨ byte = 0x45 then (readPower rest).map fun (_, suffix) => (true, suffix)
      else some (false, byte :: rest)

def readMagnitude (negative : Bool) (input : List UInt8) : Option (Numeral × List UInt8) := do
  let (whole, afterWhole) ← readDigits input
  if whole.head? = some '0' ∧ whole ≠ ['0'] then none
  else do
    let (fraction, afterFraction) ← readFraction afterWhole
    let (exponent, suffix) ← readExponent afterFraction
    some (⟨negative, whole, !fraction && !exponent⟩, suffix)

def readNumeral : List UInt8 → Option (Numeral × List UInt8)
  | [] => none
  | byte :: rest =>
      if byte = 0x2D then readMagnitude true rest else readMagnitude false (byte :: rest)

def readWord (word : String) (token : Token) (input : List UInt8) :
    Option (Token × List UInt8) :=
  let bytes := word.toUTF8.toList
  if bytes.isPrefixOf input then some (token, input.drop bytes.length) else none

def readToken (byte : UInt8) (rest : List UInt8) : Option (Token × List UInt8) :=
  match charOf byte with
  | '{' => some (.openBrace, rest)
  | '}' => some (.closeBrace, rest)
  | '[' => some (.openBracket, rest)
  | ']' => some (.closeBracket, rest)
  | ',' => some (.comma, rest)
  | ':' => some (.colon, rest)
  | '"' => (readString [] rest).map fun (pieces, suffix) => (.string pieces, suffix)
  | 'n' => readWord "ull" .null rest
  | 't' => readWord "rue" (.bool true) rest
  | 'f' => readWord "alse" (.bool false) rest
  | _ => (readNumeral (byte :: rest)).map fun (numeral, suffix) => (.number numeral, suffix)

theorem read_string_length {read pieces : List Piece} {input suffix : List UInt8}
    (decoded : readString read input = some (pieces, suffix)) :
    suffix.length < input.length := by
  fun_induction readString read input <;> simp_all <;> omega

theorem read_digits_length {digits : List Char} {input suffix : List UInt8}
    (decoded : readDigits input = some (digits, suffix)) : suffix.length < input.length := by
  simp only [readDigits] at decoded
  have total := congrArg List.length (List.takeWhile_append_dropWhile (p := isDigit) (l := input))
  simp only [List.length_append] at total
  split at decoded
  · contradiction
  · rename_i digit nonempty
    cases decoded
    have positive : 0 < (input.takeWhile isDigit).length :=
      List.length_pos_iff.mpr (by simpa using nonempty)
    omega

theorem read_fraction_length {present : Bool} {input suffix : List UInt8}
    (decoded : readFraction input = some (present, suffix)) : suffix.length ≤ input.length := by
  cases input with
  | nil => simp_all [readFraction]
  | cons byte rest =>
      simp only [readFraction] at decoded
      split at decoded
      · simp only [Option.map_eq_some_iff, Prod.mk.injEq, Prod.exists] at decoded
        obtain ⟨digits, after, taken, _, same⟩ := decoded
        have shorter := read_digits_length taken
        subst same
        simp only [List.length_cons]
        omega
      · cases decoded
        exact Nat.le_refl _

theorem read_power_length {digits : List Char} {input suffix : List UInt8}
    (decoded : readPower input = some (digits, suffix)) : suffix.length < input.length := by
  cases input with
  | nil => simp [readPower] at decoded
  | cons byte rest =>
      simp only [readPower] at decoded
      split at decoded
      · have shorter := read_digits_length decoded
        simp only [List.length_cons]
        omega
      · exact read_digits_length decoded

theorem read_exponent_length {present : Bool} {input suffix : List UInt8}
    (decoded : readExponent input = some (present, suffix)) : suffix.length ≤ input.length := by
  cases input with
  | nil => simp_all [readExponent]
  | cons byte rest =>
      simp only [readExponent] at decoded
      split at decoded
      · simp only [Option.map_eq_some_iff, Prod.mk.injEq, Prod.exists] at decoded
        obtain ⟨digits, after, taken, _, same⟩ := decoded
        have shorter := read_power_length taken
        subst same
        simp only [List.length_cons]
        omega
      · cases decoded
        exact Nat.le_refl _

theorem read_magnitude_length {negative : Bool} {numeral : Numeral} {input suffix : List UInt8}
    (decoded : readMagnitude negative input = some (numeral, suffix)) :
    suffix.length < input.length := by
  simp only [readMagnitude, Option.bind_eq_bind, Option.bind_eq_some_iff, Prod.exists] at decoded
  obtain ⟨whole, afterWhole, wholeRead, decoded⟩ := decoded
  split at decoded
  · contradiction
  · simp only [Option.bind_eq_some_iff, Prod.exists, Option.some.injEq, Prod.mk.injEq] at decoded
    obtain ⟨fraction, afterFraction, fractionRead, exponent, after, exponentRead, _, same⟩ :=
      decoded
    subst same
    have first := read_digits_length wholeRead
    have second := read_fraction_length fractionRead
    have third := read_exponent_length exponentRead
    omega

theorem read_numeral_length {numeral : Numeral} {input suffix : List UInt8}
    (decoded : readNumeral input = some (numeral, suffix)) : suffix.length < input.length := by
  cases input with
  | nil => simp [readNumeral] at decoded
  | cons byte rest =>
      simp only [readNumeral] at decoded
      split at decoded
      · have shorter := read_magnitude_length decoded
        simp only [List.length_cons]
        omega
      · exact read_magnitude_length decoded

theorem read_word_length {word : String} {token found : Token} {input suffix : List UInt8}
    (decoded : readWord word token input = some (found, suffix)) :
    suffix.length ≤ input.length := by
  simp only [readWord] at decoded
  split at decoded
  · cases decoded
    simp
  · contradiction

theorem read_token_length {byte : UInt8} {rest suffix : List UInt8} {token : Token}
    (decoded : readToken byte rest = some (token, suffix)) :
    suffix.length ≤ rest.length := by
  simp only [readToken] at decoded
  split at decoded
  case h_7 =>
    simp only [Option.map_eq_some_iff, Prod.mk.injEq, Prod.exists] at decoded
    obtain ⟨pieces, after, taken, _, same⟩ := decoded
    have shorter := read_string_length taken
    subst same
    omega
  case h_8 => exact read_word_length decoded
  case h_9 => exact read_word_length decoded
  case h_10 => exact read_word_length decoded
  case h_11 =>
    simp only [Option.map_eq_some_iff, Prod.mk.injEq, Prod.exists] at decoded
    obtain ⟨numeral, after, taken, _, same⟩ := decoded
    have shorter := read_numeral_length taken
    simp only [List.length_cons] at shorter
    subst same
    omega
  all_goals
    cases decoded
    exact Nat.le_refl _

def tokensFrom (read : Array Token) : List UInt8 → Option (Array Token)
  | [] => some read
  | byte :: rest =>
      if isSpace byte then tokensFrom read rest
      else
        match _decoded : readToken byte rest with
        | none => none
        | some (token, suffix) => tokensFrom (read.push token) suffix
termination_by input => input.length
decreasing_by
  · simp
  · have shorter := read_token_length _decoded
    simp only [List.length_cons]
    omega

def tokens (input : List UInt8) : Option (List Token) :=
  (tokensFrom #[] input).map Array.toList

end CameraScript.Json
