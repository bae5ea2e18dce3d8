import CameraScript.Trace
import CameraScript.Proofs.NumberGrammar
import Mathlib.Data.List.Forall2
import Mathlib.Logic.Relation

/-!
# Lists of trace categories

A list is cut at its separators into items, and sets a category exactly if one of the items is a
name of it. A list that is put together from two others sets what these set between them. What
the items are called is all that matters: their order and number do not, nor does the case of
their letters, nor an item that names no category.
-/

namespace CameraScript

namespace Text

def Solid (separates : Char → Bool) (piece : List Char) : Prop :=
  ∀ character ∈ piece, separates character = false

theorem solid_nil (separates : Char → Bool) : Solid separates [] :=
  List.forall_mem_nil _

/-- Solid pieces, with one separator between any two neighbours. -/
inductive Joined (separates : Char → Bool) : List (List Char) → List Char → Prop
  | last {piece : List Char} (solid : Solid separates piece) : Joined separates [piece] piece
  | next {piece : List Char} {separator : Char} {pieces : List (List Char)} {text : List Char}
      (solid : Solid separates piece) (cuts : separates separator = true)
      (rest : Joined separates pieces text) :
      Joined separates (piece :: pieces) (piece ++ separator :: text)

/-- A solid piece of the text that goes on both sides as far as to a separator or to the end of
the text. -/
def StandsIn (separates : Char → Bool) (piece text : List Char) : Prop :=
  ∃ before after, text = before ++ piece ++ after ∧
    Solid separates piece ∧
    (∀ character ∈ before.getLast?, separates character = true) ∧
    ∀ character ∈ after.head?, separates character = true

variable {separates : Char → Bool} {piece text : List Char} {pieces : List (List Char)}

theorem fields_of_solid (solid : Solid separates piece) : fields separates piece = [piece] := by
  induction piece with
  | nil => rfl
  | cons character rest ih =>
      obtain ⟨first, others⟩ := List.forall_mem_cons.mp solid
      simp [fields, first, ih others]

theorem joined_fields (separates : Char → Bool) (text : List Char) :
    Joined separates (fields separates text) text := by
  induction text with
  | nil => exact .last (solid_nil separates)
  | cons character rest ih =>
      by_cases cuts : separates character = true
      · rw [fields, if_pos cuts]
        exact .next (solid_nil separates) cuts ih
      · have solid : separates character = false := Bool.eq_false_iff.mpr cuts
        rw [fields, if_neg cuts]
        generalize fields separates rest = pieces at ih
        -- The character goes in front of the first piece of the rest.
        cases ih with
        | last others => exact .last (List.forall_mem_cons.mpr ⟨solid, others⟩)
        | next others separator more =>
            exact .next (List.forall_mem_cons.mpr ⟨solid, others⟩) separator more

/-- A text is put together from its fields and from no other pieces. -/
theorem fields_of_joined (joined : Joined separates pieces text) :
    fields separates text = pieces := by
  induction joined with
  | last solid => exact fields_of_solid solid
  | next solid cuts _ ih =>
      rw [fields_append_separator cuts, fields_of_solid solid, ih]
      rfl

theorem Joined.stands_in (joined : Joined separates pieces text) (member : piece ∈ pieces) :
    StandsIn separates piece text := by
  induction joined with
  | last solid =>
      obtain rfl := List.mem_singleton.mp member
      exact ⟨[], [], by simp, solid, by simp, by simp⟩
  | @next first separator pieces rest solid cuts _ ih =>
      rcases List.mem_cons.mp member with rfl | later
      · exact ⟨[], separator :: rest, by simp, solid, by simp, by simpa using cuts⟩
      · obtain ⟨before, after, rfl, whole, opens, closes⟩ := ih later
        refine ⟨first ++ separator :: before, after, by simp, whole, ?_, closes⟩
        intro character final
        rw [List.getLast?_append, List.getLast?_cons] at final
        cases ends : before.getLast? with
        | none =>
            obtain rfl : separator = character := by simpa [ends] using final
            exact cuts
        | some latest =>
            obtain rfl : latest = character := by simpa [ends] using final
            exact opens _ ends

theorem mem_fields_iff : piece ∈ fields separates text ↔ StandsIn separates piece text := by
  refine ⟨(joined_fields separates text).stands_in, ?_⟩
  rintro ⟨before, after, rfl, solid, opens, closes⟩
  have front : piece ∈ fields separates (piece ++ after) := by
    cases after with
    | nil => simp [fields_of_solid solid]
    | cons separator rest =>
        have cuts : separates separator = true := closes separator rfl
        simp [fields_append_separator cuts, fields_of_solid solid]
  rcases List.eq_nil_or_concat before with rfl | ⟨earlier, separator, rfl⟩
  · exact front
  · have cuts : separates separator = true := opens separator (by simp)
    have whole : earlier.concat separator ++ piece ++ after =
        earlier ++ separator :: (piece ++ after) := by simp
    rw [whole, fields_append_separator cuts]
    exact List.mem_append_right _ front

theorem solid_of_mem_fields (member : piece ∈ fields separates text) : Solid separates piece := by
  obtain ⟨_, _, -, solid, -⟩ := mem_fields_iff.mp member
  exact solid

/-! ## The case of letters -/

def Capital (capital small : Char) : Prop :=
  'A' ≤ capital ∧ capital ≤ 'Z' ∧ small.toNat = capital.toNat + 32

def SameLetter (first second : Char) : Prop :=
  first = second ∨ Capital first second ∨ Capital second first

def SameLetters : List Char → List Char → Prop :=
  List.Forall₂ SameLetter

theorem capital_iff (capital small : Char) :
    Capital capital small ↔
      65 ≤ capital.toNat ∧ capital.toNat ≤ 90 ∧ small.toNat = capital.toNat + 32 := by
  simp only [Capital, Char.le_def, UInt32.le_iff_toNat_le]
  rfl

theorem to_nat_to_lower (character : Char) :
    character.toLower.toNat =
      if 65 ≤ character.toNat ∧ character.toNat ≤ 90 then character.toNat + 32
      else character.toNat := by
  have range : character.val ≥ 'A'.val ∧ character.val ≤ 'Z'.val ↔
      65 ≤ character.toNat ∧ character.toNat ≤ 90 := by
    simp only [ge_iff_le, UInt32.le_iff_toNat_le]
    rfl
  unfold Char.toLower
  split_ifs with capital bounds bounds
  · change (character.val + 32).toNat = character.toNat + 32
    have value : character.val.toNat = character.toNat := rfl
    rw [UInt32.toNat_add, value]
    simp only [UInt32.reduceToNat]
    omega
  · exact absurd (range.mp capital) bounds
  · exact absurd (range.mpr bounds) capital
  · rfl

theorem same_letter_iff {first second : Char} :
    SameLetter first second ↔ first.toLower = second.toLower := by
  rw [SameLetter, ← Char.toNat_inj, ← Char.toNat_inj, capital_iff, capital_iff, to_nat_to_lower,
    to_nat_to_lower]
  split_ifs <;> omega

theorem same_letters_iff {first second : List Char} :
    SameLetters first second ↔ first.map Char.toLower = second.map Char.toLower := by
  have letters : SameLetter = fun first second => first.toLower = second.toLower := by
    funext first second
    exact propext same_letter_iff
  rw [SameLetters, letters, ← List.forall₂_eq_eq_eq, List.forall₂_map_left_iff,
    List.forall₂_map_right_iff]

theorem SameLetters.congr_left {first second name : List Char} (alike : SameLetters first second) :
    SameLetters first name ↔ SameLetters second name := by
  rw [same_letters_iff] at alike
  rw [same_letters_iff, same_letters_iff, alike]

instance (first second : List Char) : Decidable (SameLetters first second) :=
  decidable_of_iff _ same_letters_iff.symm

end Text

open Text

namespace TraceFlags

def ofNames (items : List (List Char)) : TraceFlags :=
  items.foldl (fun flags name => flags.merge (ofName name)) off

def Named (items : List (List Char)) (name : String) : Prop :=
  ∃ item ∈ items, SameLetters item name.toList

/-- The name is an item of the list as a whole, in letters of either case. -/
def Lists (text name : String) : Prop :=
  ∃ item, StandsIn separates item text.toList ∧ SameLetters item name.toList

def categoryNames : List String :=
  ["all", "battle_camera", "camera", "bcam"]

/-- The ways in which items may be changed while they set the same categories. -/
inductive Reworded : List (List Char) → List (List Char) → Prop
  | reordered {items others : List (List Char)} (arranged : items.Perm others) :
      Reworded items others
  | repeated {items : List (List Char)} {item : List Char} (member : item ∈ items) :
      Reworded items (item :: items)
  | emptied {items : List (List Char)} : Reworded items ([] :: items)
  | recased {items others : List (List Char)} (alike : List.Forall₂ SameLetters items others) :
      Reworded items others
  | unknown {items : List (List Char)} {item : List Char}
      (other : ∀ name ∈ categoryNames, ¬ SameLetters item name.toList) :
      Reworded items (item :: items)

variable {items others : List (List Char)}

/-! ## What items set together -/

theorem merge_fold (start : TraceFlags) (items : List (List Char)) :
    items.foldl (fun flags name => flags.merge (ofName name)) start =
      start.merge (ofNames items) := by
  induction items generalizing start with
  | nil => simp [ofNames, merge, off]
  | cons item rest ih =>
      rw [ofNames, List.foldl_cons, List.foldl_cons, ih, ih (off.merge _), off_merge, merge_assoc]

theorem of_names_append (items others : List (List Char)) :
    ofNames (items ++ others) = (ofNames items).merge (ofNames others) := by
  rw [ofNames, List.foldl_append, merge_fold]
  rfl

theorem of_names_sets (sets : TraceFlags → Bool) (unset : sets off = false)
    (joins : ∀ left right, sets (left.merge right) = (sets left || sets right))
    (items : List (List Char)) :
    sets (ofNames items) = true ↔ ∃ item ∈ items, sets (ofName item) = true := by
  induction items with
  | nil => simp [ofNames, unset]
  | cons item rest ih =>
      have split : ofNames (item :: rest) = (ofName item).merge (ofNames rest) := by
        rw [ofNames, List.foldl_cons, off_merge, merge_fold]
      rw [split, joins, Bool.or_eq_true, ih]
      simp

/-! ## What one item sets -/

theorem lowered_eq_iff {item : List Char} {name : String} (known : name ∈ categoryNames) :
    String.ofList (item.map Char.toLower) = name ↔ SameLetters item name.toList := by
  have small : ∀ name ∈ categoryNames, name.toList.map Char.toLower = name.toList := by
    decide +kernel
  rw [same_letters_iff, small name known, ← String.toList_inj, String.toList_ofList]

theorem of_name_iff {item : List Char} (solid : Solid separates item) :
    ((ofName item).all = true ↔ SameLetters item "all".toList) ∧
      ((ofName item).battleCamera = true ↔ SameLetters item "battle_camera".toList ∨
        SameLetters item "camera".toList ∨ SameLetters item "bcam".toList) := by
  have visible : ∀ character ∈ item, isBlank character = false := by
    intro character member
    have none := solid character member
    simp only [separates, Bool.or_eq_false_iff] at none
    exact none.2
  rw [← lowered_eq_iff (by decide), ← lowered_eq_iff (by decide), ← lowered_eq_iff (by decide),
    ← lowered_eq_iff (by decide)]
  simp only [ofName, trim_of_visible visible]
  split_ifs with all camera
  · simp [all]
  · simp [all, camera]
  · simp [all, camera, off]

/-! ## Which categories are set -/

theorem of_names_named (solid : ∀ item ∈ items, Solid separates item) :
    ((ofNames items).all = true ↔ Named items "all") ∧
      ((ofNames items).battleCamera = true ↔
        Named items "battle_camera" ∨ Named items "camera" ∨ Named items "bcam") := by
  rw [of_names_sets all rfl fun _ _ => rfl, of_names_sets battleCamera rfl fun _ _ => rfl]
  constructor
  · refine exists_congr fun item => and_congr_right fun member => ?_
    exact (of_name_iff (solid item member)).1
  · simp only [Named, ← exists_or, ← and_or_left]
    refine exists_congr fun item => and_congr_right fun member => ?_
    exact (of_name_iff (solid item member)).2

theorem named_fields_iff (text name : String) :
    Named (fields separates text.toList) name ↔ Lists text name :=
  exists_congr fun _ => and_congr_left fun _ => mem_fields_iff

/-- Rewording changes nothing about which of the known names there are. -/
theorem Reworded.named_iff (reworded : Reworded items others) {name : String}
    (known : name ∈ categoryNames) : Named items name ↔ Named others name := by
  have added {items : List (List Char)} {item : List Char}
      (kept : SameLetters item name.toList → Named items name) :
      Named items name ↔ Named (item :: items) name := by
    simp only [Named, List.exists_mem_cons_iff]
    exact ⟨.inr, fun either => either.elim kept id⟩
  cases reworded with
  | reordered arranged => exact exists_congr fun item => and_congr_left fun _ => arranged.mem_iff
  | repeated member => exact added fun same => ⟨_, member, same⟩
  | emptied =>
      have written : ∀ name ∈ categoryNames, name.toList ≠ [] := by decide
      exact added fun same => absurd (List.forall₂_nil_left_iff.mp same) (written name known)
  | recased alike =>
      induction alike with
      | nil => rfl
      | cons first _ ih =>
          simp only [Named, List.exists_mem_cons_iff]
          exact or_congr first.congr_left ih
  | unknown other => exact added fun same => absurd same (other name known)

theorem of_names_of_reworded
    (solid : ∀ item ∈ items, Solid separates item)
    (solidOthers : ∀ item ∈ others, Solid separates item)
    (reworded : Relation.EqvGen Reworded items others) : ofNames items = ofNames others := by
  have named : ∀ name ∈ categoryNames, Named items name ↔ Named others name := by
    intro name known
    -- The items on the way need not be those of a list, so only the names are followed.
    clear solid solidOthers
    induction reworded with
    | rel _ _ reworded => exact reworded.named_iff known
    | refl => rfl
    | symm _ _ _ ih => exact ih.symm
    | trans _ _ _ _ _ first second => exact first.trans second
  obtain ⟨all, camera⟩ := of_names_named solid
  obtain ⟨allOthers, cameraOthers⟩ := of_names_named solidOthers
  have sameAll : (ofNames items).all = (ofNames others).all := by
    rw [Bool.eq_iff_iff, all, allOthers, named "all" (by decide)]
  have sameCamera : (ofNames items).battleCamera = (ofNames others).battleCamera := by
    rw [Bool.eq_iff_iff, camera, cameraOthers, named "battle_camera" (by decide),
      named "camera" (by decide), named "bcam" (by decide)]
  calc
    ofNames items = ⟨(ofNames items).all, (ofNames items).battleCamera⟩ := rfl
    _ = ⟨(ofNames others).all, (ofNames others).battleCamera⟩ := by rw [sameAll, sameCamera]
    _ = ofNames others := rfl

/-- Two lists with a separator between them set what the one or the other sets. Every list has
its own items, and lists whose items are rewordings of each other set the same: in another order,
repeated, in other letter case, among empty items and among names of no category. A category is
set exactly if one of its names is an item of the list as a whole. -/
theorem of_list_unites_items :
    (∀ (before after : String) (separator : Char),
        separator = ',' ∨ separator = ';' ∨ isBlank separator = true →
          ofList (before ++ String.singleton separator ++ after) =
            (ofList before).merge (ofList after)) ∧
      (∀ text : String, ∃! items, Joined separates items text.toList) ∧
      (∀ (text other : String) (items others : List (List Char)),
        Joined separates items text.toList → Joined separates others other.toList →
          Relation.EqvGen Reworded items others → ofList text = ofList other) ∧
      ∀ text : String,
        ((ofList text).all = true ↔ Lists text "all") ∧
          ((ofList text).battleCamera = true ↔
            Lists text "battle_camera" ∨ Lists text "camera" ∨ Lists text "bcam") := by
  have read (text : String) : ofList text = ofNames (fields separates text.toList) := rfl
  refine ⟨?_, ?_, ?_, ?_⟩
  · intro before after separator which
    have cuts : separates separator = true := by
      rcases which with rfl | rfl | blank
      · rfl
      · rfl
      · simp [separates, blank]
    have whole : (before ++ String.singleton separator ++ after).toList =
        before.toList ++ separator :: after.toList := by simp
    rw [read, whole, fields_append_separator cuts, of_names_append]
    rfl
  · intro text
    exact ⟨_, joined_fields _ _, fun items joined => (fields_of_joined joined).symm⟩
  · intro text other items others joined joinedOther reworded
    rw [read, read]
    obtain rfl := fields_of_joined joined
    obtain rfl := fields_of_joined joinedOther
    exact of_names_of_reworded (fun _ => solid_of_mem_fields) (fun _ => solid_of_mem_fields)
      reworded
  · intro text
    simp only [← named_fields_iff]
    exact of_names_named fun _ => solid_of_mem_fields

/-- The separator keeps a name from arising out of two pieces, and the camera's name is found in
the midst of items that say nothing. -/
theorem of_list_unites_items_of_split_name :
    let text := "vm,,AL;L\u3000BCam"
    ofList text = (ofList "vm,,AL").merge (ofList "L\u3000BCam") ∧
      ofList text = ofList "bcam" ∧ ¬ Lists text "all" ∧
      (Lists text "battle_camera" ∨ Lists text "camera" ∨ Lists text "bcam") := by
  intro text
  obtain ⟨unites, -, same, lists⟩ := of_list_unites_items
  have items {text : String} {items : List (List Char)}
      (cut : fields separates text.toList = items) : Joined separates items text.toList :=
    cut ▸ joined_fields separates text.toList
  have joined : Joined separates
      ["vm".toList, [], "AL".toList, "L".toList, "BCam".toList] text.toList :=
    items (by decide +kernel)
  have alone : Joined separates ["bcam".toList] "bcam".toList := items (by decide +kernel)
  have reworded : Relation.EqvGen Reworded ["bcam".toList]
      ["vm".toList, [], "AL".toList, "L".toList, "BCam".toList] := by
    have recased : Reworded ["bcam".toList] ["BCam".toList] :=
      .recased (.cons (by decide +kernel) .nil)
    refine .trans _ _ _ (.rel _ _ recased) (.trans _ _ _ (.rel _ _ (.unknown ?_))
      (.trans _ _ _ (.rel _ _ (.unknown ?_)) (.trans _ _ _ (.rel _ _ .emptied)
        (.rel _ _ (.unknown ?_))))) <;> decide +kernel
  have set : ofList text = ofList "bcam" := (same "bcam" text _ _ alone joined reworded).symm
  have value : ofList "bcam" = ⟨false, true⟩ := by decide +kernel
  obtain ⟨all, camera⟩ := lists text
  refine ⟨unites "vm,,AL" "L\u3000BCam" ';' (.inr (.inl rfl)), set, ?_, ?_⟩
  · rw [← all, set, value]
    decide
  · rw [← camera, set, value]

end TraceFlags

end CameraScript
