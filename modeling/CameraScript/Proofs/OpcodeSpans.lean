import CameraScript.Proofs.WalkStages

/-!
# How far an opcode reaches

The span of an opcode is the number of bytes from it to the next one. A walk that
moves on moves by exactly one span, provided that positions do not wrap around, and
that is a condition on the length of the script alone.
-/

namespace CameraScript

namespace Table

/-- The bytes that an opcode takes up together with its arguments. -/
def span (table : Table) (opcode : UInt8) : Nat :=
  match Control.ofOpcode? opcode with
  | some .setWait => 2
  | some _ => 1
  | none => 1 + ((table.get? opcode).elim 0 fun descriptor => descriptor.argLength.toInt.toNat)

/-- From no position inside a script of this length does an opcode lead around the
16-bit positions. -/
def Fits (table : Table) (length : Nat) : Prop :=
  ∀ opcode, length + table.span opcode ≤ 65536

/-- From no position inside a script of this length is an argument doubled that does
not lie ahead. -/
def PatchesAhead (table : Table) (length : Nat) : Prop :=
  ∀ (opcode : UInt8) (position argument : UInt16), position.toNat < length →
    table.doubledAt? opcode position = some argument → position.toNat < argument.toNat

theorem arg_length_le (descriptor : Descriptor) : descriptor.argLength.toInt.toNat ≤ 127 := by
  have bound := descriptor.argLength.toInt_lt
  omega

theorem one_le_span (table : Table) (opcode : UInt8) : 1 ≤ table.span opcode := by
  unfold span
  split <;> omega

theorem span_le (table : Table) (opcode : UInt8) : table.span opcode ≤ 128 := by
  unfold span
  split
  · omega
  · omega
  · cases table.get? opcode with
    | none => simp
    | some descriptor =>
        have bound := arg_length_le descriptor
        simp only [Option.elim_some]
        omega

theorem fits_of_length_le (table : Table) {length : Nat} (short : length ≤ 65408) :
    table.Fits length := by
  intro opcode
  have bound := table.span_le opcode
  omega

theorem to_nat_arg_length {argLength : Int8} (forward : 0 ≤ argLength.toInt) :
    argLength.toInt16.toUInt16.toNat = argLength.toInt.toNat := by
  have widened : argLength.toInt16.toBitVec.toInt = argLength.toInt := argLength.toInt_toInt16
  have signed := argLength.toInt16.toBitVec.toInt_eq_toNat_cond
  have bits : argLength.toInt16.toUInt16.toNat = argLength.toInt16.toBitVec.toNat := rfl
  have bound := argLength.toInt_lt
  split at signed <;> omega

theorem to_nat_add_one {position : UInt16} (room : position.toNat + 1 < 65536) :
    (position + 1).toNat = position.toNat + 1 := by
  simp only [UInt16.toNat_add, UInt16.reduceToNat]
  omega

theorem parked_position (position : UInt16) :
    position + 1 + (-1 : Int8).toInt16.toUInt16 = position := by
  have back : (-1 : Int8).toInt16.toUInt16 = -1 := by decide
  rw [back, UInt16.add_assoc, UInt16.add_right_neg, UInt16.add_zero]

theorem turn_onward {table : Table} {length : Nat} {opcode : UInt8} {cursor after : Cursor}
    {next? : Option UInt8} (room : cursor.position.toNat + table.span opcode < 65536)
    (went : table.turn length opcode cursor next? = .onward after) :
    after.position.toNat = cursor.position.toNat + table.span opcode := by
  have single := table.one_le_span opcode
  have past : (cursor.position + 1).toNat = cursor.position.toNat + 1 :=
    to_nat_add_one (by omega)
  simp only [turn, span] at went room ⊢
  cases control : Control.ofOpcode? opcode with
  | none =>
      simp only [control] at went room ⊢
      cases entry : table.get? opcode with
      | none => simp [entry] at went
      | some descriptor =>
          simp only [entry, Option.elim_some] at went room ⊢
          split at went
          · contradiction
          · rename_i goesOn
            cases went
            have forward : 0 ≤ descriptor.argLength.toInt := by
              rcases table.advances opcode descriptor entry with known | ends | forward
              · simp [control] at known
              · exact absurd ends goesOn
              · exact forward
            rw [UInt16.toNat_add, past, to_nat_arg_length forward]
            omega
  | some kind =>
      cases kind with
      | wait =>
          simp only [control] at went room ⊢
          split at went
          · cases went
            exact past
          · contradiction
      | setWait =>
          simp only [control] at went room ⊢
          cases next? with
          | none => contradiction
          | some frames =>
              cases went
              rw [to_nat_add_one (by rw [past]; omega), past]
      | restart =>
          simp only [control] at went room ⊢
          split at went
          · cases next? with
            | none => contradiction
            | some next =>
                simp only at went
                split at went
                · contradiction
                · cases went
                  exact past
          · cases went
            exact past

theorem entry_of_get_insert_many {entries : List Entry} {table : Table}
    {advance : ∀ entry ∈ entries, entry.Advances} {opcode : UInt8} {descriptor : Descriptor}
    (found : (table.insertMany entries advance).get? opcode = some descriptor) :
    ⟨opcode, descriptor⟩ ∈ entries ∨ table.get? opcode = some descriptor := by
  induction entries generalizing table with
  | nil => exact .inr found
  | cons entry rest ih =>
      rcases ih found with later | here
      · exact .inl (List.mem_cons_of_mem _ later)
      · rw [get_insert] at here
        split at here
        · rename_i same
          cases here
          subst same
          exact .inl List.mem_cons_self
        · exact .inr here

end Table

/-- What the entries of both dialects have in common: they are short, and the
argument that is doubled is one of the arguments. -/
def Entry.Regular (entry : Entry) : Prop :=
  entry.descriptor.argLength.toInt ≤ 12 ∧
    (entry.descriptor.doubled.all fun index =>
      index.toNat < entry.descriptor.argLength.toInt.toNat) = true

instance (entry : Entry) : Decidable entry.Regular :=
  inferInstanceAs (Decidable (_ ∧ _))

namespace Dialect

theorem entries_regular (dialect : Dialect) : ∀ entry ∈ dialect.entries, entry.Regular := by
  cases dialect <;> decide

theorem entry_of_get {dialect : Dialect} {opcode : UInt8} {descriptor : Descriptor}
    (found : dialect.table.get? opcode = some descriptor) :
    ⟨opcode, descriptor⟩ ∈ dialect.entries := by
  have absent : Table.empty.get? opcode ≠ some descriptor := by simp [Table.get_empty]
  cases dialect <;> exact (Table.entry_of_get_insert_many found).resolve_right absent

theorem regular_of_get {dialect : Dialect} {opcode : UInt8} {descriptor : Descriptor}
    (found : dialect.table.get? opcode = some descriptor) :
    (⟨opcode, descriptor⟩ : Entry).Regular :=
  dialect.entries_regular _ (entry_of_get found)

theorem get_finish (dialect : Dialect) :
    dialect.table.get? Opcode.finish = some ⟨-1, none, true⟩ := by
  cases dialect <;> rfl

theorem span_le (dialect : Dialect) (opcode : UInt8) : dialect.table.span opcode ≤ 13 := by
  unfold Table.span
  split
  · omega
  · omega
  · cases found : dialect.table.get? opcode with
    | none => simp
    | some descriptor =>
        have short := (regular_of_get found).1
        simp only [Option.elim_some] at short ⊢
        omega

theorem fits (dialect : Dialect) {length : Nat} (short : length ≤ 65523) :
    dialect.table.Fits length := by
  intro opcode
  have bound := dialect.span_le opcode
  omega

theorem doubled_at_inside {dialect : Dialect} {opcode : UInt8} {position argument : UInt16}
    (room : position.toNat + dialect.table.span opcode < 65536)
    (doubled : dialect.table.doubledAt? opcode position = some argument) :
    position.toNat < argument.toNat ∧
      argument.toNat < position.toNat + dialect.table.span opcode := by
  simp only [Table.doubledAt?, Table.span] at doubled room ⊢
  cases control : Control.ofOpcode? opcode with
  | none =>
      simp only [control] at doubled room ⊢
      cases found : dialect.table.get? opcode with
      | none => simp [found] at doubled
      | some descriptor =>
          have regular := (regular_of_get found).2
          simp only [found, Option.bind_some, Option.elim_some] at doubled room ⊢
          cases halved : descriptor.doubled with
          | none => simp [halved] at doubled
          | some index =>
              simp only [halved, Option.all_some, decide_eq_true_eq] at regular
              simp only [halved, Option.map_some, Option.some.injEq] at doubled
              subst doubled
              rw [UInt16.toNat_add, Table.to_nat_add_one (by omega), UInt8.toNat_toUInt16]
              omega
  | some kind =>
      cases kind with
      | setWait =>
          simp only [control, Option.some.injEq] at doubled room ⊢
          subst doubled
          rw [Table.to_nat_add_one (by omega)]
          omega
      | wait => simp [control] at doubled
      | restart => simp [control] at doubled

theorem patches_ahead (dialect : Dialect) {length : Nat} (short : length ≤ 65523) :
    dialect.table.PatchesAhead length := by
  intro opcode position argument inside doubled
  have room := dialect.fits short opcode
  exact (doubled_at_inside (by omega) doubled).1

end Dialect

end CameraScript
