import CameraScript.Number

/-!
Numbers and their digits. The digits of a number, in any radix up to sixteen, are read
back as the number, provided that it is below the bound; no digits but those of zero
begin with a zero. What is written one item after the other is read back item by item.
-/

namespace CameraScript

theorem map_m_map {Read : Type → Type} [Monad Read] [LawfulMonad Read] {First Second Third : Type}
    {key : First → Second} {attempt : Second → Read Third} {result : First → Third}
    {items : List First} (each : ∀ item ∈ items, attempt (key item) = pure (result item)) :
    (items.map key).mapM attempt = pure (items.map result) := by
  induction items with
  | nil => simp
  | cons item items induction =>
      have others := induction fun other member => each other (List.mem_cons_of_mem item member)
      simp [List.mapM_cons, each item List.mem_cons_self, others]

namespace Number

variable {radix : Nat}

theorem digit_of_digit_char {value : Nat} (known : radix ≤ 16) (small : value < radix) :
    digit? radix (Nat.digitChar value) = some value := by
  have all : ∀ digit < 16, ∀ base ≤ 16, digit < base →
      digit? base (Nat.digitChar digit) = some digit := by decide
  exact all value (by omega) radix known small

theorem digits_append (bound value : Nat) (first second : List Char) :
    digits radix bound value (first ++ second) =
      (digits radix bound value first).bind fun read => digits radix bound read second := by
  induction first generalizing value with
  | nil => rfl
  | cons character rest induction =>
      simp only [List.cons_append, digits]
      cases digit? radix character with
      | none => rfl
      | some digit =>
          dsimp only
          split
          · exact induction _
          · rfl

/-- The leading digits are those of the quotient by the radix, which is below the bound
as well. -/
theorem digits_of_to_digits {bound value : Nat} (several : 1 < radix) (known : radix ≤ 16)
    (fits : value < bound) : digits radix bound 0 (Nat.toDigits radix value) = .ok value := by
  induction value using Nat.strongRecOn with
  | _ value induction =>
      rw [Nat.toDigits_eq_if several]
      split
      case isTrue small =>
        simp [digits, digit_of_digit_char known small, fits]
      case isFalse large =>
        have lower : value / radix < value := Nat.div_lt_self (by omega) several
        have last := Nat.mod_lt value (Nat.zero_lt_of_lt several)
        have whole : value / radix * radix + value % radix = value := Nat.div_add_mod' value radix
        rw [digits_append, induction _ lower (Nat.lt_trans lower fits)]
        simp only [Except.bind, digits, digit_of_digit_char known last, whole, fits, if_true]

theorem unsigned_of_signless {bound : Nat} {text : List Char} (written : text ≠ [])
    (signless : text.head? ≠ some '+') :
    unsigned radix bound text = digits radix bound 0 text := by
  unfold unsigned
  split
  · contradiction
  · exact absurd rfl signless
  · exact absurd rfl signless
  · rfl

theorem unsigned_of_digits {bound value : Nat} {text : List Char} (known : radix ≤ 16)
    (written : text ≠ []) (read : digits radix bound 0 text = .ok value) :
    unsigned radix bound text = .ok value := by
  have sign : digit? radix '+' = none := by
    have beyond : ¬ 16 < radix := by omega
    exact if_neg beyond
  rw [unsigned_of_signless written, read]
  intro signed
  cases text with
  | nil => contradiction
  | cons first rest =>
      cases Option.some.inj signed
      simp only [digits, sign] at read
      contradiction

theorem no_leading_zero {value : Nat} (several : 1 < radix) (positive : 0 < value) :
    (Nat.toDigits radix value).head? ≠ some '0' := by
  induction value using Nat.strongRecOn with
  | _ value induction =>
      rw [Nat.toDigits_eq_if several]
      split
      case isTrue small =>
        simp only [List.head?_cons, ne_eq, Option.some.injEq, Nat.digitChar_eq_zero]
        omega
      case isFalse large =>
        have lower : value / radix < value := Nat.div_lt_self positive several
        have leading := induction _ lower (Nat.div_pos (by omega) (by omega))
        cases leads : Nat.toDigits radix (value / radix) with
        | nil => exact absurd leads Nat.toDigits_ne_nil
        | cons digit rest => simpa [leads] using leading

theorem leftpad_to_digits {width value : Nat} (several : 1 < radix) (positive : 0 < width) :
    (Nat.toDigits radix value).leftpad (width + 1) '0' =
      (Nat.toDigits radix (value / radix)).leftpad width '0' ++
        [Nat.digitChar (value % radix)] := by
  by_cases small : value < radix
  · obtain ⟨width, rfl⟩ := Nat.exists_eq_succ_of_ne_zero (Nat.ne_of_gt positive)
    simp [Nat.toDigits_of_lt_base small, Nat.div_eq_of_lt small, Nat.mod_eq_of_lt small,
      Nat.toDigits_zero, List.leftpad, List.replicate_succ']
  · rw [Nat.toDigits_of_base_le several (Nat.le_of_not_lt small)]
    simp [List.leftpad]

end Number

end CameraScript
