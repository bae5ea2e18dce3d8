import CameraScript.Json.Shape
import CameraScript.Proofs.WrittenNumbers

/-!
# Records in objects

The fields of a record may stand in any order, each name spelled in any way, and members
of other names anywhere between them: what is read is what the fields hold. A field that
stands twice is refused wherever it stands and whatever else the object holds.

The name of a member has to be a text, also where it names no field. Its value may be
any data.
-/

namespace CameraScript.Json

variable {names : List String} {fields : List (String × Value)}
  {members : List (List Piece × Value)} {values : List (Option Value)} {value : Value}

/-- The fields of a record that have a value, in their own order. -/
def givenFields (names : List String) (values : List (Option Value)) : List (String × Value) :=
  (names.zip values).filterMap fun (name, value) => value.map fun value => (name, value)

/-- The fields stand among the members in this order. The other members have names that
are no fields of the record. -/
inductive Interspersed (names : List String) :
    List (String × Value) → List (List Piece × Value) → Prop
  | nil : Interspersed names [] []
  | field {name : String} {pieces : List Piece} {value : Value} {fields : List (String × Value)}
      {members : List (List Piece × Value)} (spelled : textOf pieces = some name)
      (rest : Interspersed names fields members) :
      Interspersed names ((name, value) :: fields) ((pieces, value) :: members)
  | other {name : String} {pieces : List Piece} {value : Value} {fields : List (String × Value)}
      {members : List (List Piece × Value)} (spelled : textOf pieces = some name)
      (unknown : name ∉ names) (rest : Interspersed names fields members) :
      Interspersed names fields ((pieces, value) :: members)

/-- An object that gives these values to the fields of a record, and none to the fields
without one. -/
inductive IsRecord (names : List String) (values : List (Option Value)) : Value → Prop
  | object {order : List (String × Value)} {members : List (List Piece × Value)}
      (same : order.Perm (givenFields names values)) (among : Interspersed names order members) :
      IsRecord names values (.object members)

/-- An object in which some field of the record stands twice. -/
inductive Repeated (names : List String) : Value → Prop
  | object {name : String} {first second : List Piece × Value}
      {members : List (List Piece × Value)} (known : name ∈ names)
      (both : [first, second].Sublist members) (firstSpelled : textOf first.1 = some name)
      (secondSpelled : textOf second.1 = some name) : Repeated names (.object members)

inductive HasField (names : List String) (name : String) (given : Value) : Value → Prop
  | member {pieces : List Piece} {members : List (List Piece × Value)} (known : name ∈ names)
      (spelled : textOf pieces = some name) (present : (pieces, given) ∈ members) :
      HasField names name given (.object members)
  | item {items : List Value} (placed : (name, given) ∈ names.zip items) :
      HasField names name given (.array items)

/-! ## Reading one field after the other -/

def namedMember (member : List Piece × Value) : Option (String × Value) :=
  (textOf member.1).map fun name => (name, member.2)

def called (name : String) (named : List (String × Value)) : List (String × Value) :=
  named.filter fun (given, _) => given == name

def soleValue (named : List (String × Value)) (name : String) : Option (Option Value) :=
  match called name named with
  | [] => some none
  | [(_, value)] => some (some value)
  | _ => none

theorem mem_called {name : String} {field : String × Value} {named : List (String × Value)} :
    field ∈ called name named ↔ field ∈ named ∧ field.1 = name := by
  simp [called]

theorem called_cons (name : String) (field : String × Value) (named : List (String × Value)) :
    called name (field :: named) =
      if field.1 = name then field :: called name named else called name named := by
  simp [called, List.filter_cons]

theorem field_values_object (names : List String) (defaults : Bool)
    (members : List (List Piece × Value)) :
    fieldValues names defaults (.object members) =
      (members.mapM namedMember).bind fun named => names.mapM (soleValue named) := rfl

section
variable {First Second : Type} {attempt : First → Option Second}

theorem map_m_sublist {part items : List First} {results : List Second}
    (within : part.Sublist items) (done : items.mapM attempt = some results) :
    ∃ kept, part.mapM attempt = some kept ∧ kept.Sublist results := by
  induction within generalizing results with
  | slnil => exact ⟨[], rfl, List.nil_sublist _⟩
  | cons item within induction =>
      simp only [List.mapM_cons, Option.bind_eq_bind, Option.bind_eq_some_iff] at done
      obtain ⟨first, _, rest, others, same⟩ := done
      cases same
      obtain ⟨kept, read, below⟩ := induction others
      exact ⟨kept, read, .cons first below⟩
  | cons_cons item within induction =>
      simp only [List.mapM_cons, Option.bind_eq_bind, Option.bind_eq_some_iff] at done
      obtain ⟨first, firstDone, rest, others, same⟩ := done
      cases same
      obtain ⟨kept, read, below⟩ := induction others
      exact ⟨first :: kept, by simp [List.mapM_cons, firstDone, read], .cons_cons first below⟩

theorem result_of_map_m {item : First} {items : List First} {results : List Second}
    (present : item ∈ items) (done : items.mapM attempt = some results) :
    ∃ result, attempt item = some result ∧ (item, result) ∈ items.zip results := by
  induction items generalizing results with
  | nil => cases present
  | cons head items induction =>
      simp only [List.mapM_cons, Option.bind_eq_bind, Option.bind_eq_some_iff] at done
      obtain ⟨first, firstDone, rest, others, same⟩ := done
      cases same
      obtain rfl | later := List.mem_cons.mp present
      · exact ⟨first, firstDone, List.mem_cons_self⟩
      · obtain ⟨result, succeeds, paired⟩ := induction later others
        exact ⟨result, succeeds, List.mem_cons_of_mem _ paired⟩

end

/-! ## Fields in any order -/

theorem named_of_interspersed (among : Interspersed names fields members) :
    ∃ named, members.mapM namedMember = some named ∧
      ∀ name ∈ names, called name named = called name fields := by
  induction among with
  | nil => exact ⟨[], rfl, fun _ _ => rfl⟩
  | @field name pieces value fields members spelled rest induction =>
      obtain ⟨named, read, same⟩ := induction
      refine ⟨(name, value) :: named, ?_, fun other known => ?_⟩
      · simp [List.mapM_cons, namedMember, spelled, read]
      · simp only [called_cons, same other known]
  | @other name pieces value fields members spelled unknown rest induction =>
      obtain ⟨named, read, same⟩ := induction
      refine ⟨(name, value) :: named, ?_, fun other known => ?_⟩
      · simp [List.mapM_cons, namedMember, spelled, read]
      · have different : name ≠ other := fun same => unknown (same ▸ known)
        rw [called_cons, if_neg different, same other known]

theorem name_of_given {field : String × Value} (given : field ∈ givenFields names values) :
    field.1 ∈ names := by
  obtain ⟨⟨name, value⟩, paired, same⟩ := List.mem_filterMap.mp given
  obtain ⟨value, rfl, rfl⟩ := Option.map_eq_some_iff.mp same
  exact (List.of_mem_zip paired).1

theorem called_given {name : String} {held : Option Value} (different : names.Nodup)
    (paired : (name, held) ∈ names.zip values) :
    called name (givenFields names values) =
      (held.map fun value => (name, value)).toList := by
  induction names generalizing values with
  | nil => cases paired
  | cons head names induction =>
      cases values with
      | nil => cases paired
      | cons first values =>
          obtain ⟨fresh, rest⟩ := List.nodup_cons.mp different
          have split : givenFields (head :: names) (first :: values) =
              (first.map fun value => (head, value)).toList ++ givenFields names values := by
            cases first <;> rfl
          obtain same | later := List.mem_cons.mp paired
          · obtain ⟨rfl, rfl⟩ := Prod.mk.inj same
            have none : called name (givenFields names values) = [] :=
              List.eq_nil_iff_forall_not_mem.mpr fun field present =>
                fresh ((mem_called.mp present).2 ▸ name_of_given (mem_called.mp present).1)
            cases held <;> simp [split, called_cons, none]
          · have other : head ≠ name := fun same => fresh (same ▸ (List.of_mem_zip later).1)
            cases first <;> simp [split, called_cons, other, induction rest later]

/-- Whether absent fields have defaults does not matter to an object. -/
theorem field_values_of_record (defaults : Bool) (different : names.Nodup)
    (all : names.length = values.length) (written : IsRecord names values value) :
    fieldValues names defaults value = some values := by
  cases written with
  | @object order members same among =>
      obtain ⟨named, read, alike⟩ := named_of_interspersed among
      have found : ∀ name held, (name, held) ∈ names.zip values →
          soleValue named name = some held := by
        intro name held paired
        have sole : (called name order).Perm (held.map fun value => (name, value)).toList :=
          (same.filter _).trans (.of_eq (called_given different paired))
        rw [soleValue, alike name (List.of_mem_zip paired).1]
        cases held with
        | none => rw [sole.eq_nil]
        | some held => rw [sole.eq_singleton]
      have each : ((names.zip values).map Prod.fst).mapM (soleValue named) =
          some ((names.zip values).map Prod.snd) :=
        map_m_map fun field paired => found field.1 field.2 paired
      rw [List.map_fst_zip (Nat.le_of_eq all), List.map_snd_zip (Nat.le_of_eq all.symm)] at each
      rw [field_values_object, read]
      exact each

/-! ## Fields that stand twice -/

theorem field_values_of_repeated (defaults : Bool) (repeated : Repeated names value) :
    fieldValues names defaults value = none := by
  cases repeated with
  | @object name first second members known both firstSpelled secondSpelled =>
      refine Option.eq_none_iff_forall_not_mem.mpr fun values read => ?_
      rw [field_values_object] at read
      obtain ⟨named, named_eq, found⟩ := Option.bind_eq_some_iff.mp read
      obtain ⟨kept, keptRead, below⟩ := map_m_sublist both named_eq
      have pair : kept = [(name, first.2), (name, second.2)] := by
        simpa [List.mapM_cons, namedMember, firstSpelled, secondSpelled, eq_comm] using keptRead
      obtain ⟨held, sole, _⟩ := result_of_map_m known found
      -- Both stand among what is called by this name, so that is not one field.
      have inside : [(name, first.2), (name, second.2)].Sublist named := pair ▸ below
      have twice : [(name, first.2), (name, second.2)].Sublist (called name named) := by
        simpa [called] using inside.filter fun (given, _) => given == name
      have several := twice.length_le
      rw [soleValue] at sole
      split at sole <;> simp_all

theorem value_of_field {defaults : Bool} {name : String} {given : Value}
    (read : fieldValues names defaults value = some values)
    (held : HasField names name given value) :
    (name, some given) ∈ names.zip values := by
  cases held with
  | @member pieces members known spelled present =>
      rw [field_values_object] at read
      obtain ⟨named, named_eq, found⟩ := Option.bind_eq_some_iff.mp read
      obtain ⟨kept, keptRead, below⟩ :=
        map_m_sublist (List.singleton_sublist.mpr present) named_eq
      have one : kept = [(name, given)] := by
        simpa [List.mapM_cons, namedMember, spelled, eq_comm] using keptRead
      obtain ⟨held, sole, paired⟩ := result_of_map_m known found
      have among : (name, given) ∈ called name named :=
        mem_called.mpr ⟨List.singleton_sublist.mp (one ▸ below), rfl⟩
      rw [soleValue] at sole
      split at sole <;> simp_all
  | @item items placed =>
      rw [fieldValues] at read
      split at read
      case isFalse => cases read
      case isTrue =>
        cases read
        obtain ⟨index, inside, same⟩ := List.mem_iff_getElem.mp placed
        obtain ⟨rfl, rfl⟩ := Prod.mk.inj ((List.getElem_zip ..).symm.trans same)
        have short : index < names.length ∧ index < items.length :=
          Nat.lt_min.mp (List.length_zip ▸ inside)
        exact List.mem_iff_getElem.mpr ⟨index, by simp; omega, by simp [short.2]⟩

end CameraScript.Json
