import CameraScript.Proofs.PatchEffects
import Mathlib.Data.UInt

/-!
# Accesses to an image

An access is let through exactly if all of its bytes lie in the image, counted without a bound
on the sums, and what is checked on machine words is the same. Words and scripts have no bounds of
their own: a word is its four bytes and a script starts where a byte does. All of this holds
after any writes, as a write leaves the image where it is and changes one byte of it at most.
-/

namespace CameraScript

namespace Region

def Within (base : UInt32) (length : Nat) (addr : UInt32) (count : Nat) : Prop :=
  base.toNat ≤ addr.toNat ∧ addr.toNat + count ≤ base.toNat + length

instance (base : UInt32) (length : Nat) (addr : UInt32) (count : Nat) :
    Decidable (Within base length addr count) :=
  inferInstanceAs (Decidable (_ ∧ _))

/-- The check of an access as machine words allow it: addresses and offsets have 32 bits, and the
ends that are compared have 64. -/
def offsetInWords? (region : Region) (addr : UInt32) (count : UInt64) : Option UInt32 :=
  if addr < region.base ∨
      region.base.toUInt64 + UInt64.ofNat region.bytes.size < addr.toUInt64 + count then
    none
  else some (addr - region.base)

def store (region : Region) (addr : UInt32) (value : UInt8) : Except OutOfRange Unit × Region :=
  match region.writeByte addr value with
  | .ok written => (.ok (), written)
  | .error fault => (.error fault, region)

def storeAll (region : Region) (history : List (UInt32 × UInt8)) : Region :=
  history.foldl (fun image write => (image.store write.1 write.2).2) region

/-- The last value in a history that was meant for the address. -/
def lastStored (addr : UInt32) (history : List (UInt32 × UInt8)) : Option UInt8 :=
  (history.filter fun write => write.1 = addr).getLast?.map Prod.snd

/-- The accesses that an image lets through. -/
structure Bounded (region : Region) (base : UInt32) (length : Nat) : Prop where
  located : ∀ addr count,
    (∃ place, region.locate addr count = .ok place) ↔ Within base length addr count
  inside : ∀ addr count place, region.locate addr count = .ok place →
    base.toNat + place.val = addr.toNat ∧ place.val + count ≤ region.bytes.size
  refused : ∀ addr count fault, region.locate addr count = .error fault →
    fault = ⟨addr, base, base.toNat + length⟩
  inWords : length < 2 ^ 63 → ∀ addr (count : UInt64), count.toNat < 2 ^ 63 →
    (region.locate addr count.toNat).toOption.map Subtype.val =
      (region.offsetInWords? addr count).map UInt32.toNat
  read : ∀ addr, (∃ byte, region.readByte addr = .ok byte) ↔ Within base length addr 1
  stored : ∀ addr value, (region.store addr value).1 = .ok () ↔ Within base length addr 1
  readWord : ∀ addr, (∃ word, region.readWord addr = .ok word) ↔ Within base length addr 4
  readSigned : ∀ addr, (∃ value, region.readSigned addr = .ok value) ↔ Within base length addr 4

/-- Scripts and words by the single bytes that can be read. The bytes of a word have addresses of
their own only up to the end of the address space. -/
structure Coherent (region : Region) (base : UInt32) (length : Nat) : Prop where
  viewed : ∀ addr,
    (∃ view, region.view addr = .ok view) ↔ ∃ byte, region.readByte addr = .ok byte
  extent : ∀ addr view, region.view addr = .ok view →
    view.start = addr ∧ addr.toNat + view.length = base.toNat + length ∧ 1 ≤ view.length
  worded : ∀ addr, addr.toNat ≤ 2 ^ 32 - 4 →
    ((∃ word, region.readWord addr = .ok word) ↔
      ∀ index < 4, ∃ byte, region.readByte (addr + UInt32.ofNat index) = .ok byte)
  word : ∀ addr, addr.toNat ≤ 2 ^ 32 - 4 → ∀ word, region.readWord addr = .ok word →
    ∃ first second third fourth, region.readByte addr = .ok first ∧
      region.readByte (addr + 1) = .ok second ∧ region.readByte (addr + 2) = .ok third ∧
      region.readByte (addr + 3) = .ok fourth ∧
      word.toNat = first.toNat + 2 ^ 8 * second.toNat + 2 ^ 16 * third.toNat +
        2 ^ 24 * fourth.toNat
  signed : ∀ addr value, region.readSigned addr = .ok value ↔
    ∃ word, region.readWord addr = .ok word ∧
      value.toInt = if word.toNat < 2 ^ 31 then (word.toNat : Int) else word.toNat - 2 ^ 32

/-- What a write does to an image. The bytes are counted from its start as well, so that nothing
happens to those that no address names. -/
structure Replaces (region : Region) (base : UInt32) (length : Nat) : Prop where
  failed : ∀ addr value fault next, region.store addr value = (.error fault, next) → next = region
  placed : ∀ addr value next, region.store addr value = (.ok (), next) →
    next.base = base ∧ next.bytes.size = length
  bytes : ∀ addr value next, region.store addr value = (.ok (), next) → ∀ index : Nat,
    next.bytes[index]? =
      if base.toNat + index = addr.toNat then some value else region.bytes[index]?
  read : ∀ addr value next, region.store addr value = (.ok (), next) → ∀ other,
    next.readByte other = if other = addr then .ok value else region.readByte other

variable {region : Region} {addr : UInt32}

/-! ## The bounds -/

theorem covers_iff_within {count : Nat} :
    region.Covers addr count ↔ Within region.base region.bytes.size addr count := by
  rw [Covers, Within, UInt32.le_iff_toNat_le, finish_eq]

theorem locate_eq_ok_iff {count : Nat} :
    (∃ place, region.locate addr count = .ok place) ↔ region.Covers addr count := by
  by_cases covered : region.Covers addr count <;> simp [locate, covered]

theorem locate_inside {count : Nat} {place : { offset : Nat // offset + count ≤ region.image.size }}
    (located : region.locate addr count = .ok place) :
    region.base.toNat + place.val = addr.toNat := by
  have covered := locate_eq_ok_iff.mp ⟨place, located⟩
  have after := UInt32.le_iff_toNat_le.mp covered.1
  rw [locate, dif_pos covered] at located
  cases located
  change region.base.toNat + (addr.toNat - region.base.toNat) = addr.toNat
  omega

/-- The ends fit into 64 bits, so that their comparison is that of the numbers. -/
theorem in_words_iff {count : UInt64} (short : region.bytes.size < 2 ^ 63)
    (few : count.toNat < 2 ^ 63) :
    (addr < region.base ∨
        region.base.toUInt64 + UInt64.ofNat region.bytes.size < addr.toUInt64 + count) ↔
      ¬ region.Covers addr count.toNat := by
  have baseBound := region.base.toNat_lt
  have addrBound := addr.toNat_lt
  have finishWord : (region.base.toUInt64 + UInt64.ofNat region.bytes.size).toNat =
      region.base.toNat + region.bytes.size := by
    have sizeWord : (UInt64.ofNat region.bytes.size).toNat = region.bytes.size :=
      UInt64.toNat_ofNat_of_lt' (short.trans (by decide))
    rw [UInt64.toNat_add, UInt32.toNat_toUInt64, sizeWord]
    omega
  have endWord : (addr.toUInt64 + count).toNat = addr.toNat + count.toNat := by
    rw [UInt64.toNat_add, UInt32.toNat_toUInt64]
    omega
  rw [covers_iff_within, Within, UInt64.lt_iff_toNat_lt, UInt32.lt_iff_toNat_lt, finishWord,
    endWord]
  omega

theorem locate_in_words {count : UInt64} (short : region.bytes.size < 2 ^ 63)
    (few : count.toNat < 2 ^ 63) :
    (region.locate addr count.toNat).toOption.map Subtype.val =
      (region.offsetInWords? addr count).map UInt32.toNat := by
  rw [offsetInWords?]
  simp only [in_words_iff short few]
  by_cases covered : region.Covers addr count.toNat
  · rw [locate, dif_pos covered, if_neg (not_not.mpr covered)]
    change some _ = some _
    rw [UInt32.toNat_sub_of_le _ _ covered.1]
  · rw [locate, dif_neg covered, if_pos covered]
    rfl

theorem read_byte_ok_iff : (∃ byte, region.readByte addr = .ok byte) ↔ region.Covers addr 1 := by
  by_cases covered : region.Covers addr 1 <;> simp [readByte, locate, covered]

theorem read_word_ok_iff : (∃ word, region.readWord addr = .ok word) ↔ region.Covers addr 4 := by
  by_cases covered : region.Covers addr 4 <;> simp [readWord, locate, covered]

theorem read_signed_ok_iff :
    (∃ value, region.readSigned addr = .ok value) ↔ ∃ word, region.readWord addr = .ok word := by
  rw [readSigned]
  cases region.readWord addr <;> simp [Except.map]

theorem store_ok_iff {value : UInt8} :
    (region.store addr value).1 = .ok () ↔ region.Covers addr 1 := by
  by_cases covered : region.Covers addr 1 <;> simp [store, writeByte, locate, covered]

theorem bounded (region : Region) : region.Bounded region.base region.bytes.size where
  located addr count := by rw [locate_eq_ok_iff, covers_iff_within]
  inside addr count place located := ⟨locate_inside located, place.property⟩
  refused addr count fault refused := by
    by_cases covered : region.Covers addr count
    · obtain ⟨place, located⟩ := locate_eq_ok_iff.mpr covered
      rw [located] at refused
      contradiction
    · rw [locate, dif_neg covered] at refused
      cases refused
      rfl
  inWords short addr count few := locate_in_words short few
  read addr := by rw [read_byte_ok_iff, covers_iff_within]
  stored addr value := by rw [store_ok_iff, covers_iff_within]
  readWord addr := by rw [read_word_ok_iff, covers_iff_within]
  readSigned addr := by rw [read_signed_ok_iff, read_word_ok_iff, covers_iff_within]

/-! ## Words and scripts by their bytes -/

theorem to_nat_add_index (low : addr.toNat ≤ 2 ^ 32 - 4) {index : Nat} (few : index < 4) :
    (addr + UInt32.ofNat index).toNat = addr.toNat + index := by
  rw [UInt32.toNat_add, UInt32.toNat_ofNat_of_lt' (few.trans (by decide))]
  omega

theorem covers_four_iff (low : addr.toNat ≤ 2 ^ 32 - 4) :
    region.Covers addr 4 ↔ ∀ index < 4, region.Covers (addr + UInt32.ofNat index) 1 := by
  simp only [covers_iff_within, Within]
  constructor
  · intro within index few
    rw [to_nat_add_index low few]
    omega
  · intro each
    have first := each 0 (by decide)
    have last := each 3 (by decide)
    rw [to_nat_add_index low (by decide)] at first last
    omega

theorem read_word_bytes (low : addr.toNat ≤ 2 ^ 32 - 4) {word : UInt32}
    (found : region.readWord addr = .ok word) :
    ∃ first second third fourth, region.readByte addr = .ok first ∧
      region.readByte (addr + 1) = .ok second ∧ region.readByte (addr + 2) = .ok third ∧
      region.readByte (addr + 3) = .ok fourth ∧ word = wordOfBytes first second third fourth := by
  have covered := read_word_ok_iff.mp ⟨word, found⟩
  obtain ⟨⟨place, inside⟩, located⟩ := locate_eq_ok_iff.mpr covered
  have offset : region.base.toNat + place = addr.toNat := locate_inside located
  have whole : place + 4 ≤ region.bytes.size := inside
  have byte (index : Nat) (few : index < 4) :
      region.readByte (addr + UInt32.ofNat index) = .ok region.bytes[place + index] := by
    have reached : (addr + UInt32.ofNat index).toNat = region.base.toNat + (place + index) := by
      rw [to_nat_add_index low few]
      omega
    rw [read_byte_eq_ok_iff, byte_at_index reached]
    exact Array.getElem?_eq_getElem _
  have made : word = wordOfBytes region.bytes[place] region.bytes[place + 1]
      region.bytes[place + 2] region.bytes[place + 3] := by
    rw [readWord, located] at found
    cases found
    rfl
  have here : region.readByte addr = .ok region.bytes[place] := by
    have zero : addr + UInt32.ofNat 0 = addr := UInt32.add_zero addr
    exact zero ▸ byte 0 (by decide)
  exact ⟨_, _, _, _, here, byte 1 (by decide), byte 2 (by decide), byte 3 (by decide), made⟩

theorem to_int_to_int32 (word : UInt32) :
    word.toInt32.toInt =
      if word.toNat < 2 ^ 31 then (word.toNat : Int) else word.toNat - 2 ^ 32 := by
  change word.toBitVec.toInt = _
  rw [BitVec.toInt_eq_toNat_cond]
  change (if 2 * word.toNat < 2 ^ 32 then (word.toNat : Int) else word.toNat - (2 ^ 32 : Nat)) = _
  split_ifs <;> omega

theorem read_signed_eq_ok_iff {value : Int32} :
    region.readSigned addr = .ok value ↔
      ∃ word, region.readWord addr = .ok word ∧ value.toInt = word.toInt32.toInt := by
  rw [readSigned]
  cases region.readWord addr with
  | error fault => simp [Except.map]
  | ok word => simp [Except.map, Int32.toInt_inj, eq_comm]

theorem view_ok_iff : (∃ view, region.view addr = .ok view) ↔ region.Covers addr 1 := by
  rw [View.region_view_eq]
  split_ifs with covered <;> simp [covered]

theorem view_extent {view : View} (opened : region.view addr = .ok view) :
    view.start = addr ∧ addr.toNat + view.length = region.finish ∧ 1 ≤ view.length := by
  have covered := view_ok_iff.mp ⟨view, opened⟩
  have ends := covered.2
  rw [View.region_view_eq, if_pos covered] at opened
  cases opened
  refine ⟨rfl, ?_, ?_⟩ <;> dsimp only <;> omega

theorem coherent (region : Region) : region.Coherent region.base region.bytes.size where
  viewed addr := by rw [view_ok_iff, read_byte_ok_iff]
  extent addr view opened := view_extent opened
  worded addr low := by simp only [read_word_ok_iff, covers_four_iff low, read_byte_ok_iff]
  word addr low word found := by
    obtain ⟨first, second, third, fourth, read1, read2, read3, read4, rfl⟩ :=
      read_word_bytes low found
    exact ⟨first, second, third, fourth, read1, read2, read3, read4, word_of_bytes_toNat ..⟩
  signed addr value := by simp only [read_signed_eq_ok_iff, to_int_to_int32]

/-! ## Writes -/

theorem store_eq_ok_iff {value : UInt8} {next : Region} :
    region.store addr value = (.ok (), next) ↔ region.writeByte addr value = .ok next := by
  rw [store]
  cases region.writeByte addr value <;> simp

theorem store_cases (region : Region) (addr : UInt32) (value : UInt8) :
    (∃ next, region.writeByte addr value = .ok next ∧
        region.store addr value = (.ok (), next)) ∨
      ¬ region.Covers addr 1 ∧
        region.store addr value = (.error (region.refusal addr), region) := by
  cases wrote : region.writeByte addr value with
  | ok next => exact .inl ⟨next, rfl, store_eq_ok_iff.mpr wrote⟩
  | error fault =>
      obtain ⟨outside, rfl⟩ := (write_byte_eq_error_iff region addr value fault).mp wrote
      exact .inr ⟨outside, by rw [store, wrote]⟩

theorem read_byte_written {written : Region} {value : UInt8}
    (wrote : region.writeByte addr value = .ok written) (other : UInt32) :
    written.readByte other = if other = addr then .ok value else region.readByte other := by
  obtain ⟨base, size⟩ := write_byte_placement wrote
  have refusal : written.refusal other = region.refusal other := by
    rw [refusal, refusal, finish_eq, finish_eq, base, size]
  rw [read_byte_eq, read_byte_eq, byte_write_byte wrote, refusal]
  split_ifs <;> rfl

theorem bytes_written {written : Region} {value : UInt8}
    (wrote : region.writeByte addr value = .ok written) (index : Nat) :
    written.bytes[index]? =
      if region.base.toNat + index = addr.toNat then some value else region.bytes[index]? := by
  obtain ⟨⟨reached, located⟩, rfl⟩ := write_byte_eq_ok_iff.mp wrote
  have after := UInt32.le_iff_toNat_le.mp reached
  rw [finish_eq] at located
  have same : region.base.toNat + index = addr.toNat ↔
      addr.toNat - region.base.toNat = index := by omega
  have present : addr.toNat - region.base.toNat < region.bytes.size := by omega
  rw [bytes, Array.getElem?_setIfInBounds]
  simp only [same, present, if_true]

theorem replaces (region : Region) : region.Replaces region.base region.bytes.size where
  failed addr value fault next stored := by
    rcases store_cases region addr value with ⟨_, -, wrote⟩ | ⟨-, kept⟩
    · rw [wrote] at stored
      cases stored
    · rw [kept] at stored
      cases stored
      rfl
  placed addr value next stored := write_byte_placement (store_eq_ok_iff.mp stored)
  bytes addr value next stored := bytes_written (store_eq_ok_iff.mp stored)
  read addr value next stored := read_byte_written (store_eq_ok_iff.mp stored)

/-! ## Histories of writes -/

theorem store_placement (region : Region) (addr : UInt32) (value : UInt8) :
    (region.store addr value).2.base = region.base ∧
      (region.store addr value).2.bytes.size = region.bytes.size := by
  rcases store_cases region addr value with ⟨next, wrote, stored⟩ | ⟨-, kept⟩
  · rw [stored]
    exact write_byte_placement wrote
  · rw [kept]
    exact ⟨rfl, rfl⟩

theorem store_all_placement (region : Region) (history : List (UInt32 × UInt8)) :
    (region.storeAll history).base = region.base ∧
      (region.storeAll history).bytes.size = region.bytes.size := by
  induction history generalizing region with
  | nil => exact ⟨rfl, rfl⟩
  | cons write rest ih =>
      obtain ⟨base, size⟩ := region.store_placement write.1 write.2
      obtain ⟨baseThen, sizeThen⟩ := ih (region.store write.1 write.2).2
      exact ⟨baseThen.trans base, sizeThen.trans size⟩

/-- Whether a write succeeds or not, what can be read afterwards is what could be read before,
with the new value at its address. -/
theorem read_store (region : Region) (addr other : UInt32) (value : UInt8) :
    (region.store addr value).2.readByte other =
      (region.readByte other).map fun byte => if other = addr then value else byte := by
  rcases store_cases region addr value with ⟨next, wrote, stored⟩ | ⟨outside, kept⟩
  · rw [stored, read_byte_written wrote]
    split_ifs with same
    · obtain ⟨byte, read⟩ := read_byte_ok_iff.mpr (write_byte_eq_ok_iff.mp wrote).1
      rw [same, read]
      rfl
    · cases region.readByte other <;> rfl
  · rw [kept]
    split_ifs with same
    · subst same
      cases read : region.readByte other with
      | ok byte => exact absurd (read_byte_ok_iff.mp ⟨byte, read⟩) outside
      | error fault => rfl
    · cases region.readByte other <;> rfl

theorem last_stored_cons (addr : UInt32) (write : UInt32 × UInt8)
    (rest : List (UInt32 × UInt8)) (original : UInt8) :
    (lastStored addr (write :: rest)).getD original =
      (lastStored addr rest).getD (if addr = write.1 then write.2 else original) := by
  by_cases same : write.1 = addr
  · simp only [lastStored, same, List.filter_cons_of_pos, decide_true, List.getLast?_cons]
    cases (rest.filter fun write => decide (write.1 = addr)).getLast? <;> simp
  · simp [lastStored, same, Ne.symm same]

theorem read_store_all (region : Region) (history : List (UInt32 × UInt8)) (addr : UInt32) :
    (region.storeAll history).readByte addr =
      (region.readByte addr).map fun original => (lastStored addr history).getD original := by
  induction history generalizing region with
  | nil => cases read : region.readByte addr <;> simp [storeAll, lastStored, read, Except.map]
  | cons write rest ih =>
      have onward : region.storeAll (write :: rest) =
          (region.store write.1 write.2).2.storeAll rest := rfl
      rw [onward, ih, read_store]
      cases region.readByte addr with
      | error fault => rfl
      | ok byte =>
          simp only [Except.map, last_stored_cons]

/-- After any history of writes an image stands where it stood. It lets exactly those accesses
through that lie within its bounds, and its scripts and words are those of its single bytes. A
refused write changes nothing and any other one byte, so that each byte is the last one that was
written to its address. -/
theorem accesses_stay_within (region : Region) (history : List (UInt32 × UInt8)) :
    let now := region.storeAll history
    now.Bounded region.base region.bytes.size ∧ now.Coherent region.base region.bytes.size ∧
      now.Replaces region.base region.bytes.size ∧
      ∀ addr, now.readByte addr =
        (region.readByte addr).map fun original => (lastStored addr history).getD original := by
  intro now
  obtain ⟨base, size⟩ := region.store_all_placement history
  have bounded := now.bounded
  have coherent := now.coherent
  have replaces := now.replaces
  rw [base, size] at bounded coherent replaces
  exact ⟨bounded, coherent, replaces, region.read_store_all history⟩

/-- Two bytes of this image lie behind the end of the address space. A signed word is read up to
the last address, after a write to it, a write over that and two writes that are refused. -/
theorem accesses_stay_within_at_last_address :
    let now := Region.storeAll ⟨0xFFFFFFFC, ⟨#[1, 2, 3, 4, 5, 6]⟩⟩
      [(0xFFFFFFFF, 0x7F), (0, 9), (0xFFFFFFFF, 0x80), (0xFFFFFFFB, 9)]
    (∃ value, now.readSigned 0xFFFFFFFC = .ok value ∧ value.toInt = 0x80030201 - 2 ^ 32) ∧
      (∃ view, now.view 0xFFFFFFFF = .ok view ∧ view.length = 3) ∧
      ¬ (∃ byte, now.readByte 0 = .ok byte) ∧ now.readByte 0xFFFFFFFF = .ok 0x80 := by
  intro now
  obtain ⟨bounded, coherent, -, last⟩ := accesses_stay_within ⟨0xFFFFFFFC, ⟨#[1, 2, 3, 4, 5, 6]⟩⟩
    [(0xFFFFFFFF, 0x7F), (0, 9), (0xFFFFFFFF, 0x80), (0xFFFFFFFB, 9)]
  have whole : now.readWord 0xFFFFFFFC = .ok 0x80030201 := by decide +kernel
  have signed := (coherent.signed 0xFFFFFFFC (0x80030201 : UInt32).toInt32).mpr
    ⟨0x80030201, whole, by decide⟩
  have edge : ∃ byte, now.readByte 0xFFFFFFFF = .ok byte :=
    (bounded.read 0xFFFFFFFF).mpr (by decide)
  obtain ⟨view, opened⟩ := (coherent.viewed 0xFFFFFFFF).mpr edge
  obtain ⟨-, ends, -⟩ := coherent.extent _ _ opened
  have behind : view.length = 3 := by
    change 0xFFFFFFFF + view.length = 0xFFFFFFFC + 6 at ends
    omega
  refine ⟨⟨_, signed, by decide⟩, ⟨view, opened, behind⟩, ?_, ?_⟩
  · rw [bounded.read]
    decide
  · exact last 0xFFFFFFFF

/-- The last of the four bytes of this word has no address, and yet the word is read. -/
example :
    let region : Region := ⟨0xFFFFFFFC, ⟨#[1, 2, 3, 4, 5, 6]⟩⟩
    region.readWord 0xFFFFFFFE = .ok 0x06050403 ∧ ¬ region.Covers (0xFFFFFFFE + 3) 1 := by
  decide +kernel

end Region

end CameraScript
