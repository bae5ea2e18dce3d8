/-!
Blank characters and cutting text at them. The class is the White_Space property of
the character standard, which holds more than the ASCII blanks.
-/

namespace CameraScript.Text

/-- Inclusive ranges of code points, ascending and disjoint. -/
def blankRanges : List (Nat × Nat) :=
  [(0x09, 0x0D), (0x20, 0x20), (0x85, 0x85), (0xA0, 0xA0), (0x1680, 0x1680), (0x2000, 0x200A),
    (0x2028, 0x2029), (0x202F, 0x202F), (0x205F, 0x205F), (0x3000, 0x3000)]

def isBlank (character : Char) : Bool :=
  blankRanges.any fun (first, last) => first ≤ character.toNat && character.toNat ≤ last

def trim (text : List Char) : List Char :=
  ((text.dropWhile isBlank).reverse.dropWhile isBlank).reverse

/-- The pieces between separators; there is always one more piece than separators. -/
def fields (separates : Char → Bool) : List Char → List (List Char)
  | [] => [[]]
  | character :: rest =>
      if separates character then [] :: fields separates rest
      else
        match fields separates rest with
        | [] => [[character]]
        | first :: more => (character :: first) :: more

theorem fields_ne_nil (separates : Char → Bool) (text : List Char) :
    fields separates text ≠ [] := by
  induction text with
  | nil => simp [fields]
  | cons character rest _ =>
      simp only [fields]
      split
      · simp
      · split <;> simp

theorem fields_append_separator {separates : Char → Bool} {separator : Char}
    (cuts : separates separator = true) (before after : List Char) :
    fields separates (before ++ separator :: after) =
      fields separates before ++ fields separates after := by
  induction before with
  | nil => simp [fields, cuts]
  | cons character rest induction =>
      simp only [List.cons_append, fields, induction]
      split
      · rfl
      · cases whole : fields separates rest with
        | nil => exact absurd whole (fields_ne_nil separates rest)
        | cons first more => rfl

end CameraScript.Text
