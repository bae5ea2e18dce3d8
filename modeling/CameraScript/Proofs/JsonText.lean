import CameraScript.Json.Printer
import CameraScript.Json.Reader
import CameraScript.Proofs.JsonTokens
import CameraScript.Proofs.WrittenNumbers

/-!
Printed data is read back. Data stand for one row of tokens, which the reader turns into
the same data whatever the blanks between them; the printer writes that row. Not all
data can be printed: a string holds neither a bare quote nor a control byte, and a
number has digits.
-/

namespace CameraScript.Json

/-! ## The row of tokens that data stand for -/

mutual

def rowOf : Value → List Token
  | .null => [.null]
  | .bool value => [.bool value]
  | .number numeral => [.number numeral]
  | .string pieces => [.string pieces]
  | .array [] => [.openBracket, .closeBracket]
  | .array (first :: rest) =>
      .openBracket :: (rowOf first ++ (itemRow rest ++ [.closeBracket]))
  | .object [] => [.openBrace, .closeBrace]
  | .object ((name, first) :: rest) =>
      .openBrace :: .string name :: .colon :: (rowOf first ++ (memberRow rest ++ [.closeBrace]))

def itemRow : List Value → List Token
  | [] => []
  | item :: rest => .comma :: (rowOf item ++ itemRow rest)

def memberRow : List (List Piece × Value) → List Token
  | [] => []
  | (name, value) :: rest => .comma :: .string name :: .colon :: (rowOf value ++ memberRow rest)

end

theorem feed_all_cons {reading next : Reading} {token : Token}
    (fed : feed reading token = some next) (rest : List Token) : feedAll reading (token :: rest) = feedAll next rest := by
  simp [feedAll, fed]

theorem feed_all_opened (around : List Frame) (value : Value) (rest : List Token) :
    feedAll (.opened around) (rowOf value ++ rest) =
      feedAll (.value (.array [] :: around)) (rowOf value ++ rest) := by
  cases value with
  | array items => cases items <;> simp [rowOf, feedAll, feed]
  | object members => cases members <;> simp [rowOf, feedAll, feed]
  | _ => simp [rowOf, feedAll, feed]

mutual

theorem feed_all_value (around : List Frame) (rest : List Token) : (value : Value) →
    feedAll (.value around) (rowOf value ++ rest) = feedAll (.complete value around) rest
  | .null => by simp [rowOf, feedAll, feed, beginValue]
  | .bool value => by simp [rowOf, feedAll, feed, beginValue]
  | .number numeral => by simp [rowOf, feedAll, feed, beginValue]
  | .string pieces => by simp [rowOf, feedAll, feed, beginValue]
  | .array [] => by simp [rowOf, feedAll, feed, beginValue]
  | .array (first :: items) => by
      simp only [rowOf, List.cons_append, List.append_assoc, List.nil_append]
      rw [feed_all_cons rfl, feed_all_opened, feed_all_value, feed_all_items]
      rfl
  | .object [] => by simp [rowOf, feedAll, feed, beginValue]
  | .object ((name, first) :: members) => by
      simp only [rowOf, List.cons_append, List.append_assoc, List.nil_append]
      rw [feed_all_cons rfl, feed_all_cons rfl, feed_all_cons rfl, feed_all_value, feed_all_members]
      rfl

theorem feed_all_items (around : List Frame) (rest : List Token) (first : Value)
    (before : List Value) : (items : List Value) →
    feedAll (.complete first (.array before :: around)) (itemRow items ++ .closeBracket :: rest) =
      feedAll (.complete (.array (before.reverse ++ first :: items)) around) rest
  | [] => by simp [itemRow, feedAll, feed, endValue]
  | item :: items => by
      simp only [itemRow, List.cons_append, List.append_assoc]
      rw [feed_all_cons rfl, feed_all_value, feed_all_items]
      simp

theorem feed_all_members (around : List Frame) (rest : List Token) (name : List Piece)
    (first : Value) (before : List (List Piece × Value)) : (members : List (List Piece × Value)) →
    feedAll (.complete first (.object before name :: around))
        (memberRow members ++ .closeBrace :: rest) =
      feedAll (.complete (.object (before.reverse ++ (name, first) :: members)) around) rest
  | [] => by simp [memberRow, feedAll, feed, endValue]
  | (next, value) :: members => by
      simp only [memberRow, List.cons_append, List.append_assoc]
      rw [feed_all_cons rfl, feed_all_cons rfl, feed_all_cons rfl, feed_all_value, feed_all_members]
      simp

end

/-- Whatever the blanks between its tokens, and however they are spelled. -/
theorem parse_spaced {value : Value} {text : List UInt8} (spaced : Spaced (rowOf value) text) :
    parse text = some value := by
  have read : feedAll (.value []) (rowOf value) = some (.complete value []) := by
    simpa [feedAll] using feed_all_value [] [] value
  simp only [parse, tokens_of_spaced spaced, read]

/-! ## Bytes of printed text -/

theorem byte_array_loop (bytes : ByteArray) (index : Nat) (done : List UInt8) :
    ByteArray.toList.loop bytes index done = done.reverse ++ bytes.data.toList.drop index := by
  fun_induction ByteArray.toList.loop bytes index done with
  | case1 index done inside induction =>
      have within : index < bytes.data.toList.length := inside
      rw [induction, List.drop_eq_getElem_cons within]
      simp [ByteArray.get!, getElem!_pos bytes.data index inside]
  | case2 index done outside =>
      have past : bytes.data.toList.length ≤ index := Nat.le_of_not_lt outside
      simp [List.drop_eq_nil_of_le past]

theorem byte_array_to_list (bytes : ByteArray) : bytes.toList = bytes.data.toList := by
  simp [ByteArray.toList, byte_array_loop]

theorem ascii_bytes_eq (text : String) :
    asciiBytes text = text.toList.flatMap String.utf8EncodeChar := by
  rw [asciiBytes, byte_array_to_list, String.toUTF8_eq_toByteArray, ← String.utf8Encode_toList,
    List.utf8Encode, List.toList_data_toByteArray]

theorem ascii_bytes_append (first second : String) :
    asciiBytes (first ++ second) = asciiBytes first ++ asciiBytes second := by
  simp [ascii_bytes_eq]

theorem ascii_literals :
    asciiBytes "null" = [0x6E, 0x75, 0x6C, 0x6C] ∧ asciiBytes "true" = [0x74, 0x72, 0x75, 0x65] ∧
      asciiBytes "false" = [0x66, 0x61, 0x6C, 0x73, 0x65] ∧ asciiBytes "[]" = [0x5B, 0x5D] ∧
      asciiBytes "[" = [0x5B] ∧ asciiBytes "]" = [0x5D] ∧
      asciiBytes "\x7b\x7d" = [0x7B, 0x7D] ∧ asciiBytes "\x7b" = [0x7B] ∧
      asciiBytes "\x7d" = [0x7D] ∧ asciiBytes "," = [0x2C] ∧ asciiBytes ": " = [0x3A, 0x20] := by
  decide +kernel

theorem ascii_bytes_of_list {characters : List Char}
    (ascii : ∀ character ∈ characters, character.toNat < 128) :
    asciiBytes (String.ofList characters) =
      characters.map fun character => UInt8.ofNat character.toNat := by
  rw [ascii_bytes_eq, String.toList_ofList]
  induction characters with
  | nil => rfl
  | cons character rest induction =>
      have small := ascii character List.mem_cons_self
      have single : String.utf8EncodeChar character = [UInt8.ofNat character.toNat] := by
        have below : character.val.toNat ≤ 127 := by
          have same : character.val.toNat = character.toNat := rfl
          omega
        simp only [String.utf8EncodeChar, below, if_true]
        rfl
      rw [List.flatMap_cons, single, List.map_cons,
        induction fun other member => ascii other (List.mem_cons_of_mem character member)]
      rfl

/-! ## Data that can be printed -/

def Piece.Printable : Piece → Prop
  | .byte value => ¬ value < 0x20 ∧ value ≠ 0x22 ∧ value ≠ 0x5C
  | .escape letter => isEscapeLetter letter = true
  | .unit _ => True

instance (piece : Piece) : Decidable piece.Printable :=
  match piece with
  | .byte value => inferInstanceAs (Decidable (¬ value < 0x20 ∧ value ≠ 0x22 ∧ value ≠ 0x5C))
  | .escape letter => inferInstanceAs (Decidable (isEscapeLetter letter = true))
  | .unit _ => inferInstanceAs (Decidable True)

structure Numeral.Printable (numeral : Numeral) : Prop where
  nonempty : numeral.whole ≠ []
  digits : ∀ character ∈ numeral.whole, character.isDigit = true
  leading : numeral.whole.head? = some '0' → numeral.whole = ['0']

inductive Value.Printable : Value → Prop
  | null : Printable .null
  | bool (value : Bool) : Printable (.bool value)
  | number {numeral : Numeral} (written : numeral.Printable) : Printable (.number numeral)
  | string {pieces : List Piece} (written : ∀ piece ∈ pieces, piece.Printable) :
      Printable (.string pieces)
  | array {items : List Value} (written : ∀ item ∈ items, Printable item) :
      Printable (.array items)
  | object {members : List (List Piece × Value)}
      (names : ∀ member ∈ members, ∀ piece ∈ member.1, piece.Printable)
      (written : ∀ member ∈ members, Printable member.2) : Printable (.object members)

theorem ascii_hex (code : Nat) (small : code < 0x10000) :
    asciiBytes (Text.hexLower 4 code) =
      [code / 16 / 16 / 16, code / 16 / 16 % 16, code / 16 % 16, code % 16].map fun digit =>
        UInt8.ofNat (Nat.digitChar digit).toNat := by
  have first : Nat.toDigits 16 (code / 16 / 16 / 16) = [Nat.digitChar (code / 16 / 16 / 16)] :=
    Nat.toDigits_of_lt_base (by omega)
  have padded : (Nat.toDigits 16 code).leftpad 4 '0' =
      [code / 16 / 16 / 16, code / 16 / 16 % 16, code / 16 % 16, code % 16].map Nat.digitChar := by
    rw [Number.leftpad_to_digits (by decide) (by decide),
      Number.leftpad_to_digits (by decide) (by decide),
      Number.leftpad_to_digits (by decide) (by decide), first]
    rfl
  have ascii : ∀ digit < 16, (Nat.digitChar digit).toNat < 128 := by decide
  rw [Text.hexLower, Text.padLeft, Text.hex, String.toList_ofList, padded, ascii_bytes_of_list]
  · rfl
  · simp only [List.map_cons, List.map_nil, List.mem_cons, List.not_mem_nil, or_false]
    rintro character (rfl | rfl | rfl | rfl) <;> exact ascii _ (by omega)

theorem read_code_printed (code : UInt16) :
    ∃ first second third fourth,
      asciiBytes ("\\u" ++ Text.hexLower 4 code.toNat) =
        [0x5C, 0x75, first, second, third, fourth] ∧
      readCode first second third fourth = some code := by
  have mark : asciiBytes "\\u" = [0x5C, 0x75] := by decide +kernel
  have small := code.toNat_lt
  have known : ∀ digit < 16,
      Number.digit? 16 (charOf (UInt8.ofNat (Nat.digitChar digit).toNat)) = some digit := by decide
  rw [ascii_bytes_append, mark, ascii_hex code.toNat small]
  refine ⟨_, _, _, _, rfl, ?_⟩
  have joined : ((code.toNat / 16 / 16 / 16 * 16 + code.toNat / 16 / 16 % 16) * 16 +
      code.toNat / 16 % 16) * 16 + code.toNat % 16 = code.toNat := by omega
  rw [readCode, known _ (by omega), known _ (by omega), known _ (by omega), known _ (by omega)]
  simp only [Option.bind_eq_bind, Option.bind_some, joined, UInt16.ofNat_toNat]
  rfl

theorem spells_print_piece {piece : Piece} (printable : piece.Printable) :
    piece.Spells (printPiece piece) := by
  cases piece with
  | byte value => exact .byte printable.1 printable.2.1 printable.2.2
  | escape letter => exact .escape printable
  | unit code =>
      obtain ⟨first, second, third, fourth, printed, read⟩ := read_code_printed code
      rw [printPiece, printed]
      exact .unit read

theorem spell_print_pieces {pieces : List Piece} (printable : ∀ piece ∈ pieces, piece.Printable) :
    PiecesSpell pieces (pieces.flatMap printPiece) := by
  induction pieces with
  | nil => exact .nil
  | cons piece pieces induction =>
      have first := printable piece List.mem_cons_self
      have others := fun other member => printable other (List.mem_cons_of_mem piece member)
      exact .cons (spells_print_piece first) (induction others)

theorem spells_print_string {pieces : List Piece} (printable : ∀ piece ∈ pieces, piece.Printable) :
    (Token.string pieces).Spells (printString pieces) :=
  .string (spell_print_pieces printable)

theorem digit_byte {character : Char} (digit : character.isDigit = true) :
    isDigit (UInt8.ofNat character.toNat) = true ∧
      charOf (UInt8.ofNat character.toNat) = character := by
  obtain ⟨low, high⟩ := Char.isDigit_iff_toNat.mp digit
  have all : ∀ code < 58, 48 ≤ code → isDigit (UInt8.ofNat code) = true ∧
      charOf (UInt8.ofNat code) = Char.ofNat code := by decide
  simpa using all character.toNat (Nat.lt_succ_of_le high) low

theorem digits_printed {whole : List Char} (nonempty : whole ≠ [])
    (digits : ∀ character ∈ whole, character.isDigit = true) :
    Digits (asciiBytes (String.ofList whole)) ∧
      (asciiBytes (String.ofList whole)).map charOf = whole := by
  have printed : asciiBytes (String.ofList whole) =
      whole.map fun character => UInt8.ofNat character.toNat := by
    apply ascii_bytes_of_list
    intro character member
    have bounds := Char.isDigit_iff_toNat.mp (digits character member)
    exact Nat.lt_of_le_of_lt bounds.2 (by decide)
  rw [printed]
  refine ⟨⟨by simpa using nonempty, ?_⟩, ?_⟩
  · intro byte member
    obtain ⟨character, present, rfl⟩ := List.mem_map.mp member
    exact (digit_byte (digits character present)).1
  · have kept := fun character present => (digit_byte (digits character present)).2
    rw [List.map_map]
    exact (List.map_congr_left kept).trans (List.map_id whole)

theorem spells_print_numeral {numeral : Numeral} (printable : numeral.Printable) :
    (Token.number numeral).Spells (printNumeral numeral) := by
  obtain ⟨negative, whole, integral⟩ := numeral
  obtain ⟨digits, same⟩ := digits_printed printable.nonempty printable.digits
  dsimp only at digits same
  have sign : asciiBytes (if negative then "-" else "") = if negative then [0x2D] else [] := by
    cases negative <;> decide +kernel
  have fraction : Fraction (!integral) (asciiBytes (if integral then "" else ".0")) := by
    have point : asciiBytes "" = [] ∧ asciiBytes ".0" = [0x2E, 0x30] := by decide +kernel
    have zero : Digits [0x30] := ⟨List.cons_ne_nil _ _, List.forall_mem_singleton.mpr (by decide)⟩
    cases integral with
    | true => exact point.1 ▸ .absent
    | false => exact point.2 ▸ .present zero
  generalize bytes : asciiBytes (String.ofList whole) = written at digits same
  have leading : written.head? = some 0x30 → written = [0x30] := by
    intro first
    have zero : whole.head? = some '0' := by
      rw [← same, List.head?_map, first]
      decide
    have alone : whole = ['0'] := printable.leading zero
    rw [← same, List.map_eq_singleton_iff] at alone
    obtain ⟨byte, only, _⟩ := alone
    simp_all
  have spelled : (⟨negative, written.map charOf, !!integral && !false⟩ : Numeral).Spells _ :=
    .parts digits leading fraction .absent
  rw [printNumeral, ascii_bytes_append, ascii_bytes_append, sign, bytes]
  simpa [same] using Token.Spells.number spelled

/-! ## Printing -/

theorem spaced_new_line {row : List Token} {text : List UInt8} (level : Nat)
    (spaced : Spaced row text) : Spaced row (newLine level ++ text) := by
  have blanks : ∀ count, Spaced row (List.replicate count 0x20 ++ text) := by
    intro count
    induction count with
    | zero => exact spaced
    | succ count induction => exact .blank (by decide) induction
  exact .blank (by decide) (blanks (2 * level))

theorem spaced_print_name {row : List Token} {text : List UInt8} {name : List Piece}
    (printable : ∀ piece ∈ name, piece.Printable) (spaced : Spaced row text) :
    Spaced (.string name :: .colon :: row) (printString name ++ 0x3A :: 0x20 :: text) :=
  .token (spells_print_string printable) trivial
    (.token .colon trivial (.blank (by decide) spaced))

theorem stops_new_line (level : Nat) (text : List UInt8) :
    Stops continuesNumeral (newLine level ++ text) :=
  .cons (by decide) _

theorem stops_print_items {text : List UInt8} (level : Nat) (items : List Value)
    (stops : Stops continuesNumeral text) :
    Stops continuesNumeral (printItems level items ++ text) := by
  cases items with
  | nil => exact stops
  | cons item items =>
      simp only [printItems, ascii_literals]
      exact .cons (by decide) _

theorem stops_print_members {text : List UInt8} (level : Nat)
    (members : List (List Piece × Value)) (stops : Stops continuesNumeral text) :
    Stops continuesNumeral (printMembers level members ++ text) := by
  cases members with
  | nil => exact stops
  | cons member members =>
      simp only [printMembers, ascii_literals]
      exact .cons (by decide) _

mutual

/-- A number is printed before a line break, a comma or the end of the text, none of
which continues it. -/
theorem spaced_print_value (level : Nat) {row : List Token} {text : List UInt8}
    (spaced : Spaced row text) (stops : Stops continuesNumeral text) : (value : Value) →
    value.Printable → Spaced (rowOf value ++ row) (printValue level value ++ text)
  | .null, _ => by
      rw [printValue, ascii_literals.1]
      exact .token .null trivial spaced
  | .bool true, _ => by
      simp only [printValue, ascii_literals]
      exact .token .true trivial spaced
  | .bool false, _ => by
      simp only [printValue, ascii_literals]
      exact .token .false trivial spaced
  | .number numeral, .number printable => .token (spells_print_numeral printable) stops spaced
  | .string pieces, .string printable => .token (spells_print_string printable) trivial spaced
  | .array [], _ => by
      have closed := Spaced.token .openBracket trivial (.token .closeBracket trivial spaced)
      simpa [rowOf, printValue, ascii_literals] using closed
  | .array (first :: items), .array printable => by
      -- The text is put together from its end, since a number asks what comes after it.
      have ending := spaced_new_line level (.token .closeBracket trivial spaced)
      have following := spaced_print_items (level + 1) ending (stops_new_line level _) items
        fun item member => printable item (List.mem_cons_of_mem first member)
      have leading := spaced_print_value (level + 1) following
        (stops_print_items (level + 1) items (stops_new_line level _)) first
        (printable first List.mem_cons_self)
      have opened := Spaced.token .openBracket trivial (spaced_new_line (level + 1) leading)
      simpa [rowOf, printValue, ascii_literals] using opened
  | .object [], _ => by
      have closed := Spaced.token .openBrace trivial (.token .closeBrace trivial spaced)
      simpa [rowOf, printValue, ascii_literals] using closed
  | .object ((name, first) :: members), .object names printable => by
      have ending := spaced_new_line level (.token .closeBrace trivial spaced)
      have following := spaced_print_members (level + 1) ending (stops_new_line level _) members
        (fun other member => names other (List.mem_cons_of_mem _ member))
        fun other member => printable other (List.mem_cons_of_mem _ member)
      have leading := spaced_print_value (level + 1) following
        (stops_print_members (level + 1) members (stops_new_line level _)) first
        (printable _ List.mem_cons_self)
      have named := spaced_print_name (names _ List.mem_cons_self) leading
      have opened := Spaced.token .openBrace trivial (spaced_new_line (level + 1) named)
      simpa [rowOf, printValue, ascii_literals] using opened

theorem spaced_print_items (level : Nat) {row : List Token} {text : List UInt8}
    (spaced : Spaced row text) (stops : Stops continuesNumeral text) : (items : List Value) →
    (∀ item ∈ items, item.Printable) →
      Spaced (itemRow items ++ row) (printItems level items ++ text)
  | [], _ => spaced
  | item :: items, printable => by
      have following := spaced_print_items level spaced stops items
        fun other member => printable other (List.mem_cons_of_mem item member)
      have leading := spaced_print_value level following (stops_print_items level items stops) item
        (printable item List.mem_cons_self)
      have parted := Spaced.token .comma trivial (spaced_new_line level leading)
      simpa [itemRow, printItems, ascii_literals] using parted

theorem spaced_print_members (level : Nat) {row : List Token} {text : List UInt8}
    (spaced : Spaced row text) (stops : Stops continuesNumeral text) :
    (members : List (List Piece × Value)) →
    (∀ member ∈ members, ∀ piece ∈ member.1, piece.Printable) →
    (∀ member ∈ members, member.2.Printable) →
      Spaced (memberRow members ++ row) (printMembers level members ++ text)
  | [], _, _ => spaced
  | (name, value) :: members, names, printable => by
      have following := spaced_print_members level spaced stops members
        (fun other member => names other (List.mem_cons_of_mem _ member))
        fun other member => printable other (List.mem_cons_of_mem _ member)
      have leading := spaced_print_value level following (stops_print_members level members stops)
        value (printable _ List.mem_cons_self)
      have named := spaced_print_name (names _ List.mem_cons_self) leading
      have parted := Spaced.token .comma trivial (spaced_new_line level named)
      simpa [memberRow, printMembers, ascii_literals] using parted

end

theorem spaced_pretty {value : Value} (printable : value.Printable) :
    Spaced (rowOf value) (pretty value) := by
  have spaced := spaced_print_value 0 .done (by simp [Stops]) value printable
  simpa only [pretty, List.append_nil] using spaced

theorem parse_pretty {value : Value} (printable : value.Printable) :
    parse (pretty value) = some value :=
  parse_spaced (spaced_pretty printable)

end CameraScript.Json
