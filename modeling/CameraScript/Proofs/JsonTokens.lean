import CameraScript.Json.Token

/-!
The grammar of JSON text, and that every text of the grammar is read. A token may be
spelled in several ways, and blanks may stand anywhere between two tokens. A number
alone needs something after it by which its end is seen.
-/

namespace CameraScript.Json

/-- The text ends here, or goes on with a byte that is not of this kind. -/
def Stops (kind : UInt8 → Bool) (text : List UInt8) : Prop :=
  ∀ byte ∈ text.head?, kind byte = false

theorem Stops.weaken {kind wider : UInt8 → Bool} {text : List UInt8} (stops : Stops wider text)
    (within : ∀ byte, kind byte = true → wider byte = true) : Stops kind text := by
  intro byte first
  have ended := stops byte first
  cases goesOn : kind byte with
  | false => rfl
  | true => exact absurd (within byte goesOn) (by simp [ended])

theorem Stops.cons {kind : UInt8 → Bool} {byte : UInt8} (other : kind byte = false)
    (text : List UInt8) : Stops kind (byte :: text) := by
  intro first same
  cases same
  exact other

/-! ## Strings -/

inductive Piece.Spells : Piece → List UInt8 → Prop
  | byte {value : UInt8} (visible : ¬ value < 0x20) (quotes : value ≠ 0x22)
      (escapes : value ≠ 0x5C) : Spells (.byte value) [value]
  | escape {letter : UInt8} (known : isEscapeLetter letter = true) :
      Spells (.escape letter) [0x5C, letter]
  | unit {first second third fourth : UInt8} {code : UInt16}
      (digits : readCode first second third fourth = some code) :
      Spells (.unit code) [0x5C, 0x75, first, second, third, fourth]

inductive PiecesSpell : List Piece → List UInt8 → Prop
  | nil : PiecesSpell [] []
  | cons {piece : Piece} {pieces : List Piece} {bytes more : List UInt8}
      (first : piece.Spells bytes) (rest : PiecesSpell pieces more) :
      PiecesSpell (piece :: pieces) (bytes ++ more)

theorem read_string_piece {piece : Piece} {bytes : List UInt8} (spelled : piece.Spells bytes)
    (read : List Piece) (rest : List UInt8) :
    readString read (bytes ++ rest) = readString (piece :: read) rest := by
  cases spelled with
  | byte visible quotes escapes =>
      rw [List.singleton_append, readString.eq_def]
      simp only [quotes, escapes, visible, if_false]
  | @escape letter known =>
      have ordinary : letter ≠ 0x75 := by
        rintro rfl
        revert known
        decide
      rw [readString.eq_def]
      simp [ordinary, known]
  | unit digits =>
      rw [readString.eq_def]
      simp [digits]

theorem read_string_spelled {pieces : List Piece} {bytes : List UInt8}
    (spelled : PiecesSpell pieces bytes) (read : List Piece) (rest : List UInt8) :
    readString read (bytes ++ 0x22 :: rest) = some (read.reverse ++ pieces, rest) := by
  induction spelled generalizing read with
  | nil =>
      rw [readString.eq_def]
      simp
  | cons first others induction =>
      rw [List.append_assoc, read_string_piece first, induction]
      simp

/-! ## Numbers -/

structure Digits (bytes : List UInt8) : Prop where
  nonempty : bytes ≠ []
  digits : ∀ byte ∈ bytes, isDigit byte = true

inductive Fraction : Bool → List UInt8 → Prop
  | absent : Fraction false []
  | present {bytes : List UInt8} (digits : Digits bytes) : Fraction true (0x2E :: bytes)

inductive Exponent : Bool → List UInt8 → Prop
  | absent : Exponent false []
  | present {mark : UInt8} {sign bytes : List UInt8} (marked : mark = 0x65 ∨ mark = 0x45)
      (signed : sign = [] ∨ sign = [0x2B] ∨ sign = [0x2D]) (digits : Digits bytes) :
      Exponent true (mark :: (sign ++ bytes))

inductive Numeral.Spells : Numeral → List UInt8 → Prop
  | parts {negative fractional exponential : Bool} {whole fraction exponent : List UInt8}
      (digits : Digits whole) (leading : whole.head? = some 0x30 → whole = [0x30])
      (places : Fraction fractional fraction) (power : Exponent exponential exponent) :
      Spells ⟨negative, whole.map charOf, !fractional && !exponential⟩
        ((if negative then [0x2D] else []) ++ (whole ++ (fraction ++ exponent)))

def continuesNumeral (byte : UInt8) : Bool :=
  isDigit byte || byte == 0x2E || byte == 0x65 || byte == 0x45

theorem read_digits_spelled {digits rest : List UInt8} (spelled : Digits digits)
    (stops : Stops isDigit rest) :
    readDigits (digits ++ rest) = some (digits.map charOf, rest) := by
  have taken : (digits ++ rest).takeWhile isDigit = digits := by
    rw [List.takeWhile_append_of_pos spelled.digits]
    cases rest with
    | nil => simp
    | cons byte rest => simp [stops byte rfl]
  have left : (digits ++ rest).dropWhile isDigit = rest := by
    rw [List.dropWhile_append_of_pos spelled.digits]
    cases rest with
    | nil => simp
    | cons byte rest => simp [stops byte rfl]
  simp only [readDigits, taken, left]
  split
  · exact absurd rfl spelled.nonempty
  · rfl

theorem read_power_spelled {sign digits rest : List UInt8}
    (signed : sign = [] ∨ sign = [0x2B] ∨ sign = [0x2D]) (spelled : Digits digits)
    (stops : Stops isDigit rest) :
    readPower (sign ++ (digits ++ rest)) = some (digits.map charOf, rest) := by
  have all := read_digits_spelled spelled stops
  obtain rfl | rfl | rfl := signed
  · cases digits with
    | nil => exact absurd rfl spelled.nonempty
    | cons digit digits =>
        have isDigit := spelled.digits digit List.mem_cons_self
        have unsigned : ¬ (digit = 0x2B ∨ digit = 0x2D) := by
          rintro (rfl | rfl) <;> exact absurd isDigit (by decide)
        simpa [readPower, unsigned] using all
  · simpa [readPower] using all
  · simpa [readPower] using all

theorem read_exponent_spelled {present : Bool} {bytes rest : List UInt8}
    (spelled : Exponent present bytes) (stops : Stops continuesNumeral rest) :
    readExponent (bytes ++ rest) = some (present, rest) := by
  cases spelled with
  | absent =>
      cases rest with
      | nil => rfl
      | cons byte rest =>
          have ended := stops byte rfl
          have unmarked : ¬ (byte = 0x65 ∨ byte = 0x45) := by
            rintro (rfl | rfl) <;> exact absurd ended (by decide)
          simp [readExponent, unmarked]
  | present marked signed digits =>
      have noDigit : Stops isDigit rest := stops.weaken (by simp +contextual [continuesNumeral])
      simp only [List.cons_append, List.append_assoc, readExponent, marked, if_true,
        read_power_spelled signed digits noDigit, Option.map_some]

theorem exponent_stops {present : Bool} {bytes rest : List UInt8}
    (spelled : Exponent present bytes) (stops : Stops continuesNumeral rest) :
    Stops (fun byte => isDigit byte || byte == 0x2E) (bytes ++ rest) := by
  cases spelled with
  | absent => exact stops.weaken (by simp +contextual [continuesNumeral])
  | present marked signed digits =>
      obtain rfl | rfl := marked
      · exact .cons (by decide) _
      · exact .cons (by decide) _

theorem read_fraction_spelled {present : Bool} {bytes rest : List UInt8}
    (spelled : Fraction present bytes)
    (stops : Stops (fun byte => isDigit byte || byte == 0x2E) rest) :
    readFraction (bytes ++ rest) = some (present, rest) := by
  cases spelled with
  | absent =>
      cases rest with
      | nil => rfl
      | cons byte rest =>
          have ended := stops byte rfl
          have unmarked : byte ≠ 0x2E := by
            rintro rfl
            exact absurd ended (by decide)
          simp [readFraction, unmarked]
  | present digits =>
      have noDigit : Stops isDigit rest := stops.weaken (by simp +contextual)
      simp only [List.cons_append, readFraction, if_true, read_digits_spelled digits noDigit,
        Option.map_some]

theorem fraction_stops {present : Bool} {bytes rest : List UInt8}
    (spelled : Fraction present bytes)
    (stops : Stops (fun byte => isDigit byte || byte == 0x2E) rest) :
    Stops isDigit (bytes ++ rest) := by
  cases spelled with
  | absent => exact stops.weaken (by simp +contextual)
  | present digits => exact .cons (by decide) _

theorem byte_of_zero {byte : UInt8} (zero : charOf byte = '0') : byte = 0x30 := by
  have all : ∀ code < 256, Char.ofNat code = '0' → code = 0x30 := by decide +kernel
  exact UInt8.toNat_inj.mp (all byte.toNat byte.toNat_lt zero)

theorem read_magnitude_spelled {fractional exponential : Bool}
    {whole fraction exponent rest : List UInt8} (negative : Bool) (digits : Digits whole)
    (leading : whole.head? = some 0x30 → whole = [0x30]) (places : Fraction fractional fraction)
    (power : Exponent exponential exponent) (stops : Stops continuesNumeral rest) :
    readMagnitude negative (whole ++ (fraction ++ (exponent ++ rest))) =
      some (⟨negative, whole.map charOf, !fractional && !exponential⟩, rest) := by
  have afterFraction := exponent_stops power stops
  have afterWhole := fraction_stops places afterFraction
  have alone : ¬ ((whole.map charOf).head? = some '0' ∧ whole.map charOf ≠ ['0']) := by
    rintro ⟨zero, longer⟩
    obtain ⟨byte, first, written⟩ : ∃ byte, whole.head? = some byte ∧ charOf byte = '0' := by
      simpa [List.head?_map] using zero
    cases byte_of_zero written
    exact longer (by rw [leading first]; decide)
  simp only [readMagnitude, read_digits_spelled digits afterWhole, alone,
    read_fraction_spelled places afterFraction, read_exponent_spelled power stops,
    Option.bind_eq_bind, Option.bind_some, if_false]

theorem read_numeral_spelled {numeral : Numeral} {bytes rest : List UInt8}
    (spelled : numeral.Spells bytes) (stops : Stops continuesNumeral rest) :
    readNumeral (bytes ++ rest) = some (numeral, rest) := by
  cases spelled with
  | @parts negative fractional exponential whole fraction exponent digits leading places power =>
      have unsigned := read_magnitude_spelled negative digits leading places power stops
      cases negative with
      | true => simpa [readNumeral] using unsigned
      | false =>
          cases whole with
          | nil => exact absurd rfl digits.nonempty
          | cons digit whole =>
              have first := digits.digits digit List.mem_cons_self
              have noSign : digit ≠ 0x2D := by
                rintro rfl
                exact absurd first (by decide)
              simpa [readNumeral, noSign] using unsigned

/-! ## Tokens -/

inductive Token.Spells : Token → List UInt8 → Prop
  | openBrace : Spells .openBrace [0x7B]
  | closeBrace : Spells .closeBrace [0x7D]
  | openBracket : Spells .openBracket [0x5B]
  | closeBracket : Spells .closeBracket [0x5D]
  | comma : Spells .comma [0x2C]
  | colon : Spells .colon [0x3A]
  | null : Spells .null [0x6E, 0x75, 0x6C, 0x6C]
  | true : Spells (.bool true) [0x74, 0x72, 0x75, 0x65]
  | false : Spells (.bool false) [0x66, 0x61, 0x6C, 0x73, 0x65]
  | number {numeral : Numeral} {bytes : List UInt8} (spelled : numeral.Spells bytes) :
      Spells (.number numeral) bytes
  | string {pieces : List Piece} {bytes : List UInt8} (spelled : PiecesSpell pieces bytes) :
      Spells (.string pieces) (0x22 :: (bytes ++ [0x22]))

def Token.Ends : Token → List UInt8 → Prop
  | .number _, text => Stops continuesNumeral text
  | _, _ => True

theorem read_token_number {byte : UInt8} (begins : isDigit byte = true ∨ byte = 0x2D)
    (rest : List UInt8) :
    readToken byte rest =
      (readNumeral (byte :: rest)).map fun (numeral, suffix) => (.number numeral, suffix) := by
  have others : ∀ code < 256, isDigit (UInt8.ofNat code) = true ∨ UInt8.ofNat code = 0x2D →
      charOf (UInt8.ofNat code) ∉ ['{', '}', '[', ']', ',', ':', '"', 'n', 't', 'f'] := by
    decide +kernel
  have apart := others byte.toNat byte.toNat_lt
  simp only [UInt8.ofNat_toNat] at apart
  -- No byte that begins a number begins a token of another kind.
  have different := apart begins
  simp only [readToken]
  split
  all_goals first
    | rfl
    | simp_all

theorem Numeral.Spells.begins {numeral : Numeral} {bytes : List UInt8}
    (spelled : numeral.Spells bytes) :
    ∃ byte more, bytes = byte :: more ∧ (isDigit byte = true ∨ byte = 0x2D) := by
  cases spelled with
  | @parts negative _ _ whole _ _ digits leading places power =>
      cases negative with
      | true => exact ⟨0x2D, _, rfl, .inr rfl⟩
      | false =>
          cases whole with
          | nil => exact absurd rfl digits.nonempty
          | cons digit whole => exact ⟨digit, _, rfl, .inl (digits.digits digit List.mem_cons_self)⟩

theorem read_word_spelled {word : String} {letters : List UInt8} (token : Token)
    (rest : List UInt8) (spelled : word.toUTF8.toList = letters) :
    readWord word token (letters ++ rest) = some (token, rest) := by
  simp only [readWord, spelled]
  simp

theorem begins_visibly {byte : UInt8} (begins : isDigit byte = true ∨ byte = 0x2D) :
    isSpace byte = false := by
  obtain digit | rfl := begins
  · cases space : isSpace byte with
    | false => rfl
    | true =>
        simp only [isSpace, Bool.or_eq_true, beq_iff_eq] at space
        obtain ((rfl | rfl) | rfl) | rfl := space <;> exact absurd digit (by decide)
  · decide

theorem read_token_spelled {token : Token} {bytes rest : List UInt8}
    (spelled : token.Spells bytes) (ends : token.Ends rest) :
    ∃ byte more, bytes = byte :: more ∧ isSpace byte = false ∧
      readToken byte (more ++ rest) = some (token, rest) := by
  cases spelled with
  | number spelled =>
      obtain ⟨byte, more, rfl, begins⟩ := spelled.begins
      have read := read_numeral_spelled spelled ends
      rw [List.cons_append] at read
      exact ⟨byte, more, rfl, begins_visibly begins, by rw [read_token_number begins, read]; rfl⟩
  | @string pieces bytes spelled =>
      have read : readString [] (bytes ++ [0x22] ++ rest) = some (pieces, rest) := by
        simpa using read_string_spelled spelled [] rest
      refine ⟨0x22, _, rfl, by decide, ?_⟩
      change (readString [] (bytes ++ [0x22] ++ rest)).map _ = _
      rw [read]
      rfl
  | null => exact ⟨_, _, rfl, by decide, read_word_spelled .null rest (by decide +kernel)⟩
  | true => exact ⟨_, _, rfl, by decide, read_word_spelled (.bool true) rest (by decide +kernel)⟩
  | false => exact ⟨_, _, rfl, by decide, read_word_spelled (.bool false) rest (by decide +kernel)⟩
  | _ => exact ⟨_, _, rfl, by decide, rfl⟩

/-- A text in which tokens stand one after the other, with blanks wherever they like. -/
inductive Spaced : List Token → List UInt8 → Prop
  | done : Spaced [] []
  | blank {tokens : List Token} {text : List UInt8} {byte : UInt8} (space : isSpace byte = true)
      (rest : Spaced tokens text) : Spaced tokens (byte :: text)
  | token {token : Token} {tokens : List Token} {bytes text : List UInt8}
      (spelled : token.Spells bytes) (ends : token.Ends text) (rest : Spaced tokens text) :
      Spaced (token :: tokens) (bytes ++ text)

theorem tokens_from_blank {byte : UInt8} (space : isSpace byte = true) (read : Array Token)
    (rest : List UInt8) : tokensFrom read (byte :: rest) = tokensFrom read rest := by
  rw [tokensFrom]
  simp [space]

theorem tokens_from_token {byte : UInt8} {rest suffix : List UInt8} {token : Token}
    (visible : isSpace byte = false) (taken : readToken byte rest = some (token, suffix))
    (read : Array Token) :
    tokensFrom read (byte :: rest) = tokensFrom (read.push token) suffix := by
  rw [tokensFrom]
  simp only [visible, Bool.false_eq_true, if_false]
  split
  · simp_all
  · simp_all

theorem tokens_from_spaced {row : List Token} {text : List UInt8} (spaced : Spaced row text)
    (read : Array Token) : tokensFrom read text = some (read ++ row.toArray) := by
  induction spaced generalizing read with
  | done => simp [tokensFrom]
  | blank space rest induction => rw [tokens_from_blank space, induction]
  | token spelled ends rest induction =>
      obtain ⟨byte, more, rfl, visible, taken⟩ := read_token_spelled spelled ends
      rw [List.cons_append, tokens_from_token visible taken, induction]
      simp

theorem tokens_of_spaced {row : List Token} {text : List UInt8} (spaced : Spaced row text) :
    tokens text = some row := by
  simp [tokens, tokens_from_spaced spaced]

end CameraScript.Json
