import CameraScript.Table
import Mathlib.Data.List.Dedup

/-!
# Tables from lists of entries

A list of entries is taken into a table entry by entry, and each entry is checked by itself.
The table that comes out knows nothing of the order of the list but which entry for an opcode
was the last one; its own entries, in any order, make the same table again.
-/

namespace CameraScript

/-- A walk does not get past such an entry: the opcode neither steers the walk nor ends it,
and moves the position back. -/
def Entry.Stalls (entry : Entry) : Prop :=
  entry.opcode ∉ [0xF4, 0xF5, 0xFE] ∧ entry.descriptor.terminal = false ∧
    entry.descriptor.argLength < 0

instance (entry : Entry) : Decidable entry.Stalls :=
  inferInstanceAs (Decidable (_ ∧ _ ∧ _))

theorem Entry.stalls_iff (entry : Entry) : entry.Stalls ↔ ¬ entry.Advances := by
  have control : (Control.ofOpcode? entry.opcode).isSome = true ↔
      entry.opcode ∈ [0xF4, 0xF5, 0xFE] := by
    simp only [Option.isSome_iff_exists, Control.of_opcode_eq_some_iff]
    constructor
    · rintro ⟨control, same⟩
      cases control <;> simp [same, Control.opcode, Opcode.wait, Opcode.setWait, Opcode.restart]
    · intro member
      simp only [List.mem_cons, List.not_mem_nil, or_false] at member
      rcases member with same | same | same
      · exact ⟨.wait, same⟩
      · exact ⟨.setWait, same⟩
      · exact ⟨.restart, same⟩
  have back : entry.descriptor.argLength < 0 ↔ ¬ 0 ≤ entry.descriptor.argLength.toInt := by
    rw [Int8.lt_iff_toInt_lt, Int8.toInt_zero, Int.not_le]
  rw [Stalls, Advances, control, back]
  simp only [not_or, Bool.not_eq_true]

namespace Table

variable {table : Table} {entries : List Entry}

theorem fold_accept_of_advancing (table : Table) (entries : List Entry)
    (advance : ∀ entry ∈ entries, entry.Advances) :
    entries.foldlM accept table = .ok (table.insertMany entries advance) := by
  induction entries generalizing table with
  | nil => rfl
  | cons entry rest ih =>
      have first : table.accept entry =
          .ok (table.insert entry (advance entry List.mem_cons_self)) := dif_pos _
      rw [List.foldlM_cons, first]
      exact ih _ _

/-- What follows an entry that stalls has no part in the answer. -/
theorem of_entries_of_stalling {before after : List Entry} {entry : Entry}
    (advance : ∀ earlier ∈ before, earlier.Advances) (stalls : ¬ entry.Advances) :
    ofEntries (before ++ entry :: after) = .error ⟨entry.opcode, entry.descriptor.argLength⟩ := by
  have refused (table : Table) :
      table.accept entry = .error ⟨entry.opcode, entry.descriptor.argLength⟩ := dif_neg stalls
  rw [ofEntries, List.foldlM_append, fold_accept_of_advancing empty before advance]
  change (entry :: after).foldlM accept _ = _
  rw [List.foldlM_cons, refused]
  rfl

theorem of_entries_of_advancing (advance : ∀ entry ∈ entries, entry.Advances) :
    ofEntries entries = .ok (ofAdvancing entries advance) :=
  fold_accept_of_advancing empty entries advance

theorem first_stalling (entries : List Entry) :
    (∀ entry ∈ entries, entry.Advances) ∨
      ∃ before entry after, entries = before ++ entry :: after ∧
        (∀ earlier ∈ before, earlier.Advances) ∧ ¬ entry.Advances := by
  cases found : entries.find? fun entry => !decide entry.Advances with
  | none => exact .inl (by simpa using found)
  | some entry =>
      obtain ⟨stalls, before, after, whole, advance⟩ := List.find?_eq_some_iff_append.mp found
      exact .inr ⟨before, entry, after, whole, by simpa using advance, by simpa using stalls⟩

theorem of_entries_eq_error_iff (entries : List Entry) (fault : NonAdvancing) :
    ofEntries entries = .error fault ↔
      ∃ before entry after, entries = before ++ entry :: after ∧
        (∀ earlier ∈ before, earlier.Advances) ∧ ¬ entry.Advances ∧
        fault = ⟨entry.opcode, entry.descriptor.argLength⟩ := by
  constructor
  · intro refused
    rcases first_stalling entries with all | ⟨before, entry, after, rfl, advance, stalls⟩
    · rw [of_entries_of_advancing all] at refused
      contradiction
    · rw [of_entries_of_stalling advance stalls] at refused
      cases refused
      exact ⟨before, entry, after, rfl, advance, stalls, rfl⟩
  · rintro ⟨before, entry, after, rfl, advance, stalls, rfl⟩
    exact of_entries_of_stalling advance stalls

theorem of_entries_eq_ok_iff (entries : List Entry) :
    (∃ table, ofEntries entries = .ok table) ↔ ∀ entry ∈ entries, entry.Advances := by
  constructor
  · rintro ⟨table, accepted⟩
    rcases first_stalling entries with all | ⟨before, entry, after, rfl, advance, stalls⟩
    · exact all
    · rw [of_entries_of_stalling advance stalls] at accepted
      contradiction
  · intro advance
    exact ⟨_, of_entries_of_advancing advance⟩

def lastFor (opcode : UInt8) (entries : List Entry) : Option Descriptor :=
  (entries.filter fun entry => entry.opcode = opcode).getLast?.map Entry.descriptor

theorem get_insert_many (table : Table) (entries : List Entry)
    (advance : ∀ entry ∈ entries, entry.Advances) (opcode : UInt8) :
    (table.insertMany entries advance).get? opcode =
      (lastFor opcode entries).or (table.get? opcode) := by
  induction entries generalizing table with
  | nil => rfl
  | cons entry rest ih =>
      rw [insertMany, ih, get_insert]
      by_cases same : entry.opcode = opcode
      · simp [lastFor, same, List.getLast?_cons]
      · simp [lastFor, same, Ne.symm same]

theorem get_of_accepted (accepted : ofEntries entries = .ok table) (opcode : UInt8) :
    table.get? opcode = lastFor opcode entries := by
  have advance := (of_entries_eq_ok_iff entries).mp ⟨table, accepted⟩
  rw [of_entries_of_advancing advance] at accepted
  cases accepted
  rw [ofAdvancing, get_insert_many, get_empty, Option.or_none]

theorem last_for_eq_none_iff (opcode : UInt8) (entries : List Entry) :
    lastFor opcode entries = none ↔ ∀ entry ∈ entries, entry.opcode ≠ opcode := by
  simp [lastFor]

theorem last_for_eq_some_iff (different : (entries.map Entry.opcode).Nodup) {opcode : UInt8}
    {descriptor : Descriptor} :
    lastFor opcode entries = some descriptor ↔ ⟨opcode, descriptor⟩ ∈ entries := by
  induction entries with
  | nil => simp [lastFor]
  | cons entry rest ih =>
      obtain ⟨fresh, others⟩ := List.nodup_cons.mp different
      by_cases same : entry.opcode = opcode
      · have alone : rest.filter (fun other => other.opcode = opcode) = [] := by
          refine List.filter_eq_nil_iff.mpr fun other member equal => ?_
          exact fresh (same.trans (of_decide_eq_true equal).symm ▸ List.mem_map_of_mem member)
        have elsewhere : ⟨opcode, descriptor⟩ ∉ rest := fun member =>
          fresh (same ▸ List.mem_map_of_mem (f := Entry.opcode) member)
        obtain ⟨_, given⟩ := entry
        subst same
        rw [List.mem_cons, or_iff_left elsewhere, lastFor, List.filter_cons_of_pos (by simp), alone]
        simp [eq_comm]
      · have other : (⟨opcode, descriptor⟩ : Entry) ≠ entry := by
          rintro rfl
          exact same rfl
        rw [List.mem_cons, or_iff_right other, ← ih others]
        simp [lastFor, same]

/-! ## The entries of a table -/

theorem mem_entries (entry : Entry) :
    entry ∈ table.entries ↔ table.get? entry.opcode = some entry.descriptor := by
  have every : entry.opcode ∈ opcodes :=
    List.mem_map.mpr ⟨entry.opcode.toNat, List.mem_range.mpr entry.opcode.toNat_lt,
      UInt8.ofNat_toNat⟩
  simp only [entries, List.mem_filterMap, Option.map_eq_some_iff]
  constructor
  · rintro ⟨opcode, -, descriptor, found, rfl⟩
    exact found
  · intro found
    exact ⟨entry.opcode, every, entry.descriptor, found, rfl⟩

theorem mem_opcodes_iff (opcode : UInt8) :
    opcode ∈ table.entries.map Entry.opcode ↔ table.get? opcode ≠ none := by
  rw [List.mem_map, Option.ne_none_iff_exists']
  constructor
  · rintro ⟨entry, member, rfl⟩
    exact ⟨entry.descriptor, (mem_entries entry).mp member⟩
  · rintro ⟨descriptor, found⟩
    exact ⟨⟨opcode, descriptor⟩, (mem_entries _).mpr found, rfl⟩

theorem opcodes_ascending : opcodes.Pairwise (· < ·) := by
  refine List.pairwise_map.mpr (List.pairwise_lt_range.imp_of_mem fun first second less => ?_)
  rw [UInt8.lt_iff_toNat_lt, UInt8.toNat_ofNat_of_lt' (List.mem_range.mp first),
    UInt8.toNat_ofNat_of_lt' (List.mem_range.mp second)]
  exact less

theorem entries_ascending (table : Table) : (table.entries.map Entry.opcode).Pairwise (· < ·) := by
  rw [List.pairwise_map, entries, List.pairwise_filterMap]
  refine opcodes_ascending.imp fun ascending first found second foundSecond => ?_
  obtain ⟨_, -, rfl⟩ := Option.map_eq_some_iff.mp found
  obtain ⟨_, -, rfl⟩ := Option.map_eq_some_iff.mp foundSecond
  exact ascending

theorem entries_nodup (table : Table) : (table.entries.map Entry.opcode).Nodup :=
  (entries_ascending table).imp fun ascending => UInt8.ne_of_lt ascending

/-- The own entries of a table, in any order, are taken into the same table. -/
theorem of_entries_of_perm {again : List Entry} (arranged : again.Perm table.entries) :
    ofEntries again = .ok table := by
  have advance : ∀ entry ∈ again, entry.Advances := by
    intro entry member
    exact table.advances _ _ ((mem_entries entry).mp (arranged.mem_iff.mp member))
  obtain ⟨rebuilt, accepted⟩ := (of_entries_eq_ok_iff again).mpr advance
  have different : (again.map Entry.opcode).Nodup :=
    (arranged.map Entry.opcode).nodup_iff.mpr table.entries_nodup
  rw [accepted]
  congr 1
  refine ext_get fun opcode => Option.ext fun descriptor => ?_
  rw [get_of_accepted accepted, last_for_eq_some_iff different, arranged.mem_iff, mem_entries]

structure Holds (table : Table) (entries : List Entry) : Prop where
  last : ∀ opcode, table.get? opcode = lastFor opcode entries
  absent : ∀ opcode, table.get? opcode = none ↔ ∀ entry ∈ entries, entry.opcode ≠ opcode
  listed : ∀ entry, entry ∈ table.entries ↔ table.get? entry.opcode = some entry.descriptor
  ascending : (table.entries.map Entry.opcode).Pairwise (· < ·)
  size : table.size = (entries.map Entry.opcode).dedup.length
  rebuilt : ∀ again : List Entry, again.Perm table.entries → ofEntries again = .ok table

theorem holds_of_accepted (accepted : ofEntries entries = .ok table) : table.Holds entries where
  last := get_of_accepted accepted
  absent opcode := by rw [get_of_accepted accepted, last_for_eq_none_iff]
  listed := mem_entries
  ascending := table.entries_ascending
  size := by
    have same : (table.entries.map Entry.opcode).Perm (entries.map Entry.opcode).dedup := by
      refine (List.perm_ext_iff_of_nodup table.entries_nodup (List.nodup_dedup _)).mpr ?_
      intro opcode
      rw [mem_opcodes_iff, get_of_accepted accepted, ne_eq, last_for_eq_none_iff, List.mem_dedup]
      simp
    rw [Table.size, ← same.length_eq, List.length_map]
  rebuilt _ arranged := of_entries_of_perm arranged

/-- A list of entries is refused for its first entry that stalls, whatever stands after this
entry, and is taken into a table if it has none. -/
theorem of_entries_refuses_first_stalling (entries : List Entry) :
    ((∃ table, ofEntries entries = .ok table) ↔ ∀ entry ∈ entries, ¬ entry.Stalls) ∧
      (∀ fault, ofEntries entries = .error fault ↔
        ∃ before entry after, entries = before ++ entry :: after ∧
          (∀ earlier ∈ before, ¬ earlier.Stalls) ∧ entry.Stalls ∧
          fault = ⟨entry.opcode, entry.descriptor.argLength⟩) ∧
      ∀ table, ofEntries entries = .ok table → table.Holds entries := by
  simp only [Entry.stalls_iff, not_not]
  exact ⟨of_entries_eq_ok_iff entries, of_entries_eq_error_iff entries,
    fun table accepted => holds_of_accepted accepted⟩

/-- The second entry for an opcode takes the place of the first, and a wait may step back. -/
theorem of_entries_refuses_first_stalling_of_replaced :
    let entries : List Entry :=
      [⟨0x10, ⟨2, none, false⟩⟩, ⟨0xF4, ⟨-1, none, false⟩⟩, ⟨0x10, ⟨3, some 1, false⟩⟩]
    ∃ table, ofEntries entries = .ok table ∧ table.get? 0x10 = some ⟨3, some 1, false⟩ ∧
      table.get? 0xFF = none ∧ table.size = 2 ∧ ofEntries table.entries.reverse = .ok table := by
  intro entries
  obtain ⟨accepts, -, holds⟩ := of_entries_refuses_first_stalling entries
  obtain ⟨table, accepted⟩ := accepts.mpr (by decide)
  have held := holds table accepted
  exact ⟨table, accepted, (held.last 0x10).trans (by decide), (held.absent 0xFF).mpr (by decide),
    held.size.trans (by decide), held.rebuilt _ (List.reverse_perm _)⟩

/-- A bad entry is refused although a good one would have replaced it. -/
example : ofEntries [⟨0x10, ⟨-1, none, false⟩⟩, ⟨0x10, ⟨0, none, false⟩⟩] = .error ⟨0x10, -1⟩ :=
  rfl

end Table

end CameraScript
