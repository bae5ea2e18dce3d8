import CameraScript.Proofs.WrittenNumbers
import Mathlib.Data.List.DropRight
import Mathlib.Data.List.Forall2
import Mathlib.Data.Nat.Digits.Defs

/-!
# The grammar of typed numbers

A number is typed in decimal digits, or in hexadecimal ones after a mark, and a plus sign may
stand before its digits. What the digits denote is their positional value, which has no bound;
a number is read exactly if it has such a form and lies below the bound.
-/

namespace CameraScript

namespace Text

/-- The text inside of the blanks at both ends. -/
def Trims (text inner : List Char) : Prop :=
  ∃ left right, text = left ++ inner ++ right ∧
    (∀ character ∈ left ++ right, isBlank character = true) ∧
    (∀ character ∈ inner.head?, isBlank character = false) ∧
    ∀ character ∈ inner.getLast?, isBlank character = false

theorem trims_trim (text : List Char) : Trims text (trim text) := by
  let rest := text.dropWhile isBlank
  have inner : trim text = rest.rdropWhile isBlank := rfl
  have whole : text = text.takeWhile isBlank ++ (trim text ++ rest.rtakeWhile isBlank) := by
    rw [inner, List.rdropWhile_append_rtakeWhile, List.takeWhile_append_dropWhile]
  refine ⟨_, _, by rw [List.append_assoc]; exact whole, ?_, ?_, ?_⟩
  · intro character member
    rcases List.mem_append.mp member with front | back
    · exact List.mem_takeWhile_imp front
    · exact List.mem_rtakeWhile_imp back
  · intro character first
    obtain ⟨more, same⟩ : trim text <+: rest := inner ▸ List.rdropWhile_prefix isBlank rest
    have leads : rest.head? = some character := by
      rw [← same, List.head?_append, Option.mem_def.mp first, Option.some_or]
    have visible := List.head?_dropWhile_not isBlank text
    rwa [leads] at visible
  · intro character final
    have visible := List.head?_dropWhile_not isBlank rest.reverse
    rw [inner, List.rdropWhile, List.getLast?_reverse, Option.mem_def] at final
    rwa [final] at visible

theorem trim_of_visible {text : List Char}
    (visible : ∀ character ∈ text, isBlank character = false) : trim text = text := by
  have front : text.dropWhile isBlank = text :=
    List.dropWhile_eq_self_iff.mpr fun _ => by simp [visible _ (List.getElem_mem _)]
  rw [trim, front]
  exact List.rdropWhile_eq_self_iff.mpr fun _ => by simp [visible _ (List.getLast_mem _)]

end Text

namespace Number

def digitRows : List (List Char) :=
  ["0123456789abcdef".toList, "0123456789ABCDEF".toList]

def StandsFor (radix : Nat) (character : Char) (value : Nat) : Prop :=
  value < radix ∧ ∃ row ∈ digitRows, row[value]? = some character

instance (radix : Nat) (character : Char) (value : Nat) :
    Decidable (StandsFor radix character value) :=
  inferInstanceAs (Decidable (_ ∧ _))

/-- At least one digit, and the value that the digits have by their places. -/
def Denotes (radix : Nat) (digits : List Char) (number : Nat) : Prop :=
  digits ≠ [] ∧ ∃ values, List.Forall₂ (StandsFor radix) digits values ∧
    number = Nat.ofDigits radix values.reverse

def Signed (radix : Nat) (text : List Char) (number : Nat) : Prop :=
  ∃ sign digits, text = sign ++ digits ∧ (sign = [] ∨ sign = ['+']) ∧
    Denotes radix digits number

/-- The forms in which a number may be typed. What has the mark of a hexadecimal number is no
decimal one. -/
inductive Typed : List Char → Nat → Prop
  | hexadecimal {mark : Char} {body : List Char} {number : Nat} (marked : mark = 'x' ∨ mark = 'X')
      (signed : Signed 16 body number) : Typed ('0' :: mark :: body) number
  | decimal {text : List Char} {number : Nat}
      (unmarked : ¬ ['0', 'x'] <+: text ∧ ¬ ['0', 'X'] <+: text)
      (signed : Signed 10 text number) : Typed text number

variable {radix : Nat}

/-! ## Digits -/

/-- In a smaller radix there are fewer digits, and they stand for the same. -/
theorem digit_eq_some_iff (known : radix ≤ 16) {character : Char} {value : Nat} :
    digit? radix character = some value ↔ value < radix ∧ digit? 16 character = some value := by
  simp only [digit?, Option.ite_none_right_eq_some, Option.some.injEq]
  omega

theorem digit_sixteen_iff {character : Char} {value : Nat} :
    digit? 16 character = some value ↔ ∃ row ∈ digitRows, row[value]? = some character := by
  constructor
  · intro read
    have small : character.toNat < 103 := by
      simp only [digit?] at read
      grind
    have all : ∀ code < 103, ∀ digit ∈ digit? 16 (Char.ofNat code),
        ∃ row ∈ digitRows, row[digit]? = some (Char.ofNat code) := by
      decide +kernel
    have listed := all character.toNat small value
    rw [Char.ofNat_toNat] at listed
    exact listed read
  · rintro ⟨row, member, listed⟩
    have all : ∀ row ∈ digitRows, row.length = 16 ∧
        ∀ digit < 16, row[digit]?.bind (digit? 16) = some digit := by
      decide +kernel
    obtain ⟨length, reads⟩ := all row member
    have inside : value < row.length := (List.getElem?_eq_some_iff.mp listed).1
    have read := reads value (length ▸ inside)
    rwa [listed, Option.bind_some] at read

theorem digit_iff_stands_for (known : radix ≤ 16) {character : Char} {value : Nat} :
    digit? radix character = some value ↔ StandsFor radix character value := by
  rw [digit_eq_some_iff known, digit_sixteen_iff, StandsFor]

theorem stands_for_of_digits (known : radix ≤ 16) {bound start number : Nat} {text : List Char}
    (read : digits radix bound start text = .ok number) :
    ∃ values, List.Forall₂ (StandsFor radix) text values := by
  induction text generalizing start with
  | nil => exact ⟨[], .nil⟩
  | cons character rest ih =>
      simp only [digits] at read
      split at read
      · contradiction
      · rename_i digit first
        split at read
        · obtain ⟨values, others⟩ := ih read
          exact ⟨digit :: values, .cons ((digit_iff_stands_for known).mp first) others⟩
        · contradiction

/-- Digits are read as their positional value, after what was read before them. The value only
grows on the way, so it is too large at some digit exactly if it is too large at the end. -/
theorem digits_of_values (known : radix ≤ 16) (positive : 0 < radix) {bound start : Nat}
    {text : List Char} {values : List Nat} (stand : List.Forall₂ (StandsFor radix) text values)
    (small : start < bound) :
    digits radix bound start text =
      if start * radix ^ text.length + Nat.ofDigits radix values.reverse < bound then
        .ok (start * radix ^ text.length + Nat.ofDigits radix values.reverse)
      else .error .tooLarge := by
  induction stand generalizing start with
  | nil => simp [digits, small]
  | @cons character value rest values first others ih =>
      have shifted : start * radix ^ (character :: rest).length +
          Nat.ofDigits radix (value :: values).reverse =
            (start * radix + value) * radix ^ rest.length + Nat.ofDigits radix values.reverse := by
        rw [Nat.ofDigits_reverse_cons, List.length_cons, ← others.length_eq]
        ring
      rw [shifted, digits, (digit_iff_stands_for known).mpr first]
      dsimp only
      split
      · exact ih ‹_›
      · rename_i large
        have grows : start * radix + value ≤ (start * radix + value) * radix ^ rest.length :=
          Nat.le_mul_of_pos_right _ (Nat.pow_pos positive)
        rw [if_neg (by omega)]

theorem digits_of_denotes (known : radix ≤ 16) (positive : 0 < radix) {bound number : Nat}
    {text : List Char} (denotes : Denotes radix text number) (exists_small : 0 < bound) :
    digits radix bound 0 text = if number < bound then .ok number else .error .tooLarge := by
  obtain ⟨-, values, stand, rfl⟩ := denotes
  simpa using digits_of_values known positive stand exists_small

/-! ## Signs and marks -/

theorem plus_stands_for_nothing (radix value : Nat) : ¬ StandsFor radix '+' value := by
  rintro ⟨-, row, member, listed⟩
  have absent : ∀ row ∈ digitRows, '+' ∉ row := by decide
  exact absent row member (List.mem_of_getElem? listed)

theorem unsigned_of_signed (known : radix ≤ 16) (positive : 0 < radix) {bound number : Nat}
    {text : List Char} (signed : Signed radix text number) (room : 0 < bound) :
    unsigned radix bound text = if number < bound then .ok number else .error .tooLarge := by
  obtain ⟨sign, written, rfl, rfl | rfl, denotes⟩ := signed
  · have signless : written.head? ≠ some '+' := by
      obtain ⟨-, values, stand, -⟩ := denotes
      cases stand with
      | nil => nofun
      | cons first others =>
          intro same
          cases same
          exact plus_stands_for_nothing _ _ first
    rw [List.nil_append, unsigned_of_signless denotes.1 signless,
      digits_of_denotes known positive denotes room]
  · rw [← digits_of_denotes known positive denotes room]
    cases written with
    | nil => exact absurd rfl denotes.1
    | cons first rest => rfl

theorem denotes_of_digits (known : radix ≤ 16) (positive : 0 < radix) {bound number : Nat}
    {text : List Char} (written : text ≠ []) (room : 0 < bound)
    (read : digits radix bound 0 text = .ok number) : Denotes radix text number := by
  obtain ⟨values, stand⟩ := stands_for_of_digits known read
  have denotes : Denotes radix text (Nat.ofDigits radix values.reverse) :=
    ⟨written, values, stand, rfl⟩
  rw [digits_of_denotes known positive denotes room] at read
  split at read
  · cases read
    exact denotes
  · contradiction

theorem signed_of_unsigned (known : radix ≤ 16) (positive : 0 < radix) {bound number : Nat}
    {text : List Char} (room : 0 < bound) (read : unsigned radix bound text = .ok number) :
    Signed radix text number := by
  unfold unsigned at read
  split at read
  · contradiction
  · contradiction
  · rename_i rest lone
    have written : rest ≠ [] := fun none => lone (none ▸ rfl)
    exact ⟨['+'], rest, rfl, .inr rfl, denotes_of_digits known positive written room read⟩
  · rename_i written _ _
    exact ⟨[], text, rfl, .inl rfl, denotes_of_digits known positive written room read⟩

theorem split_radix_cases (text : List Char) :
    (∃ mark body, (mark = 'x' ∨ mark = 'X') ∧ text = '0' :: mark :: body ∧
        splitRadix text = (16, body)) ∨
      (¬ ['0', 'x'] <+: text ∧ ¬ ['0', 'X'] <+: text) ∧ splitRadix text = (10, text) := by
  unfold splitRadix
  split
  · exact .inl ⟨'x', _, .inl rfl, rfl, rfl⟩
  · exact .inl ⟨'X', _, .inr rfl, rfl, rfl⟩
  · rename_i small capital
    refine .inr ⟨⟨?_, ?_⟩, rfl⟩
    · rintro ⟨rest, same⟩
      exact small rest same.symm
    · rintro ⟨rest, same⟩
      exact capital rest same.symm

end Number

open Number

theorem parse_number_of_typed {text : String} {number : Nat}
    (typed : Typed (Text.trim text.toList) number) :
    parseNumber text =
      if number < UInt32.size then .ok (UInt32.ofNat number)
      else .error ⟨Text.trim text.toList, .tooLarge⟩ := by
  have room : 0 < UInt32.size := by decide
  unfold parseNumber
  generalize Text.trim text.toList = trimmed at typed
  cases typed with
  | @hexadecimal mark body number marked signed =>
      have split : splitRadix ('0' :: mark :: body) = (16, body) := by
        rcases marked with rfl | rfl <;> rfl
      simp only [split, unsigned_of_signed (by decide) (by decide) signed room]
      split_ifs <;> rfl
  | decimal unmarked signed =>
      rcases split_radix_cases trimmed with ⟨mark, body, marked, rfl, -⟩ | ⟨-, split⟩
      · rcases marked with rfl | rfl
        · exact absurd ⟨body, rfl⟩ unmarked.1
        · exact absurd ⟨body, rfl⟩ unmarked.2
      · simp only [split, unsigned_of_signed (by decide) (by decide) signed room]
        split_ifs <;> rfl

theorem typed_of_parse_number {text : String} {number : UInt32}
    (read : parseNumber text = .ok number) :
    Typed (Text.trim text.toList) number.toNat := by
  have room : 0 < UInt32.size := by decide
  have typed : ∃ value, Typed (Text.trim text.toList) value := by
    unfold parseNumber at read
    generalize Text.trim text.toList = trimmed at read
    dsimp only at read
    split at read
    · rename_i value found
      rcases split_radix_cases trimmed with ⟨mark, body, marked, rfl, split⟩ | ⟨unmarked, split⟩ <;>
        rw [split] at found
      · exact ⟨value, .hexadecimal marked (signed_of_unsigned (by decide) (by decide) room found)⟩
      · exact ⟨value, .decimal unmarked (signed_of_unsigned (by decide) (by decide) room found)⟩
    · contradiction
  obtain ⟨value, typed⟩ := typed
  rw [parse_number_of_typed typed] at read
  split at read
  · rename_i fits
    cases read
    rwa [UInt32.toNat_ofNat_of_lt' fits]
  · contradiction

/-! ## Written numbers -/

namespace Number

theorem denotes_to_digits (several : 1 < radix) (known : radix ≤ 16) (number : Nat) :
    Denotes radix (Nat.toDigits radix number) number :=
  denotes_of_digits known (Nat.zero_lt_of_lt several) Nat.toDigits_ne_nil number.succ_pos
    (digits_of_to_digits several known number.lt_succ_self)

theorem Denotes.padded {text : List Char} {number : Nat} (denotes : Denotes radix text number)
    (positive : 0 < radix) (width : Nat) : Denotes radix (text.leftpad width '0') number := by
  obtain ⟨written, values, stand, rfl⟩ := denotes
  have zero : StandsFor radix '0' 0 := ⟨positive, by decide⟩
  have zeros (count : Nat) :
      List.Forall₂ (StandsFor radix) (List.replicate count '0') (List.replicate count 0) := by
    induction count with
    | zero => exact .nil
    | succ count ih => exact .cons zero ih
  refine ⟨by simp [List.leftpad, written], _, List.rel_append (zeros _) stand, ?_⟩
  simp

theorem StandsFor.capital {character : Char} {value : Nat}
    (stands : StandsFor radix character value) : StandsFor radix character.toUpper value := by
  have all : ∀ row ∈ digitRows, row.map Char.toUpper ∈ digitRows := by decide +kernel
  obtain ⟨small, row, member, listed⟩ := stands
  exact ⟨small, row.map Char.toUpper, all row member, by rw [List.getElem?_map, listed]; rfl⟩

theorem Denotes.capitals {text : List Char} {number : Nat} (denotes : Denotes radix text number) :
    Denotes radix (text.map Char.toUpper) number := by
  obtain ⟨written, values, stand, same⟩ := denotes
  refine ⟨by simpa using written, values, ?_, same⟩
  exact List.forall₂_map_left_iff.mpr (stand.imp fun _ _ => StandsFor.capital)

theorem StandsFor.visible {character : Char} {value : Nat}
    (stands : StandsFor radix character value) :
    Text.isBlank character = false ∧ character ≠ 'x' ∧ character ≠ 'X' := by
  have all : ∀ row ∈ digitRows, row.all fun letter =>
      !Text.isBlank letter && letter != 'x' && letter != 'X' := by
    decide +kernel
  obtain ⟨-, row, member, listed⟩ := stands
  have seen := List.all_eq_true.mp (all row member) character (List.mem_of_getElem? listed)
  simpa [and_assoc] using seen

theorem Denotes.visible {text : List Char} {number : Nat} (denotes : Denotes radix text number) :
    ∀ character ∈ text, Text.isBlank character = false ∧ character ≠ 'x' ∧ character ≠ 'X' := by
  obtain ⟨-, values, stand, -⟩ := denotes
  induction stand with
  | nil => simp
  | cons first others ih => exact List.forall_mem_cons.mpr ⟨first.visible, ih⟩

theorem Denotes.typed_decimal {text : List Char} {number : Nat} (denotes : Denotes 10 text number) :
    Typed text number := by
  refine .decimal ⟨?_, ?_⟩ ⟨[], text, rfl, .inl rfl, denotes⟩
  · rintro ⟨rest, rfl⟩
    exact (denotes.visible 'x' (by simp)).2.1 rfl
  · rintro ⟨rest, rfl⟩
    exact (denotes.visible 'X' (by simp)).2.2 rfl

end Number

theorem parse_number_of_visible {text : String} {number : UInt32}
    (visible : ∀ character ∈ text.toList, Text.isBlank character = false)
    (typed : Typed text.toList number.toNat) : parseNumber text = .ok number := by
  have trimmed := Text.trim_of_visible visible
  rw [parse_number_of_typed (trimmed.symm ▸ typed), if_pos number.toNat_lt, UInt32.ofNat_toNat]

theorem parse_number_of_decimal {text : String} {number : UInt32}
    (denotes : Denotes 10 text.toList number.toNat) : parseNumber text = .ok number :=
  parse_number_of_visible (fun character member => (denotes.visible character member).1)
    denotes.typed_decimal

theorem parse_number_of_hexadecimal {text : String} {mark : Char} {digits : List Char}
    {number : UInt32} (form : text.toList = '0' :: mark :: digits)
    (marked : mark = 'x' ∨ mark = 'X') (denotes : Denotes 16 digits number.toNat) :
    parseNumber text = .ok number := by
  apply parse_number_of_visible <;> rw [form]
  · have opening : Text.isBlank '0' = false ∧ Text.isBlank mark = false := by
      rcases marked with rfl | rfl <;> decide
    refine List.forall_mem_cons.mpr ⟨opening.1, List.forall_mem_cons.mpr ⟨opening.2, ?_⟩⟩
    exact fun character member => (denotes.visible character member).1
  · exact .hexadecimal marked ⟨[], digits, rfl, .inl rfl, denotes⟩

/-- A number is read from a text exactly if the text has the form of a number below the bound,
inside of the blanks around it. A larger number is refused as too large. Every number is read
back as it is written, in decimal digits or in hexadecimal ones of either case, with any number
of zeros in front. -/
theorem parse_number_accepts_typed :
    (∀ text : String, Text.Trims text.toList (Text.trim text.toList)) ∧
      (∀ (text : String) (number : UInt32),
        parseNumber text = .ok number ↔ Typed (Text.trim text.toList) number.toNat) ∧
      (∀ (text : String) (number : Nat), Typed (Text.trim text.toList) number →
        UInt32.size ≤ number → parseNumber text = .error ⟨Text.trim text.toList, .tooLarge⟩) ∧
      ∀ (number : UInt32) (width : Nat),
        parseNumber (Text.padLeft width '0' (toString number)) = .ok number ∧
          parseNumber ("0x" ++ Text.hexLower width number.toNat) = .ok number ∧
          parseNumber ("0X" ++ Text.hexUpper width number.toNat) = .ok number := by
  refine ⟨fun text => Text.trims_trim _, fun text number => ⟨typed_of_parse_number, ?_⟩, ?_, ?_⟩
  · intro typed
    rw [parse_number_of_typed typed, if_pos number.toNat_lt, UInt32.ofNat_toNat]
  · intro text number typed large
    rw [parse_number_of_typed typed, if_neg (Nat.not_lt.mpr large)]
  · intro number width
    have decimal : Denotes 10 (Nat.toDigits 10 number.toNat) number.toNat :=
      denotes_to_digits (by decide) (by decide) _
    have hexadecimal : Denotes 16 (Nat.toDigits 16 number.toNat) number.toNat :=
      denotes_to_digits (by decide) (by decide) _
    refine ⟨parse_number_of_decimal ?_,
      parse_number_of_hexadecimal ?_ (.inl rfl) (hexadecimal.padded (by decide) width),
      parse_number_of_hexadecimal ?_ (.inr rfl) (hexadecimal.capitals.padded (by decide) width)⟩
    · have written : (toString number).toList = Nat.toDigits 10 number.toNat := by
        change (Nat.repr number.toNat).toList = _
        rw [Nat.repr, String.toList_ofList]
      rw [Text.padLeft, String.toList_ofList, written]
      exact decimal.padded (by decide) width
    · simp [Text.hexLower, Text.padLeft, Text.hex]
    · simp [Text.hexUpper, Text.padLeft]

/-- The first number that does not fit, behind a sign and zeros and between blanks. -/
theorem parse_number_accepts_typed_up_to_bound :
    let text := "\u3000 0X+00100000000\t"
    Typed (Text.trim text.toList) 4294967296 ∧ UInt32.size ≤ 4294967296 ∧
      parseNumber text = .error ⟨"0X+00100000000".toList, .tooLarge⟩ := by
  intro text
  have trimmed : Text.trim text.toList = '0' :: 'X' :: "+00100000000".toList := by decide +kernel
  have denotes : Denotes 16 "00100000000".toList 4294967296 :=
    ⟨by decide, [0, 0, 1, 0, 0, 0, 0, 0, 0, 0, 0], by decide +kernel, by decide +kernel⟩
  have typed : Typed (Text.trim text.toList) 4294967296 := by
    rw [trimmed]
    exact .hexadecimal (.inr rfl) ⟨['+'], _, by decide, .inr rfl, denotes⟩
  obtain ⟨-, -, refuses, -⟩ := parse_number_accepts_typed
  refine ⟨typed, by decide, (refuses text _ typed (by decide)).trans ?_⟩
  rw [trimmed]
  rfl

/-- What is marked as hexadecimal has no second mark. -/
example : parseNumber "0x0x10" = .error ⟨"0x0x10".toList, .invalidDigit⟩ := by
  decide +kernel

end CameraScript
