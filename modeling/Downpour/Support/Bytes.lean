import Mathlib

/-!
Fixed-width little-endian integers and checked slices of byte lists: the
parts from which a binary record format is assembled and read back.
-/

namespace Bytes

def toLittleEndian : Nat → Nat → List UInt8
  | 0, _ => []
  | width + 1, value => UInt8.ofNat value :: toLittleEndian width (value / 256)

def ofLittleEndian (bytes : List UInt8) : Nat :=
  Nat.ofDigits 256 (bytes.map UInt8.toNat)

@[simp]
theorem little_endian_length (width value : Nat) : (toLittleEndian width value).length = width := by
  induction width generalizing value with
  | zero => rfl
  | succ width ih => simp [toLittleEndian, ih]

theorem little_endian_read (width value : Nat) (fits : value < 256 ^ width) :
    ofLittleEndian (toLittleEndian width value) = value := by
  induction width generalizing value with
  | zero =>
    have zero : value = 0 := by simpa using fits
    simp [toLittleEndian, ofLittleEndian, zero]
  | succ width ih =>
    have rest := ih (value / 256) (by rw [Nat.div_lt_iff_lt_mul (by omega), ← pow_succ]; exact fits)
    unfold ofLittleEndian at rest ⊢
    rw [toLittleEndian, List.map_cons, Nat.ofDigits_cons, rest]
    simp only [UInt8.toNat_ofNat']
    omega

theorem of_little_endian_lt (bytes : List UInt8) : ofLittleEndian bytes < 256 ^ bytes.length := by
  have bound := Nat.ofDigits_lt_base_pow_length (b := 256) (l := bytes.map UInt8.toNat) (by omega) (by
    intro digit mem
    obtain ⟨byte, _, rfl⟩ := List.mem_map.mp mem
    exact byte.toNat_lt)
  rwa [List.length_map] at bound

theorem little_endian_written (bytes : List UInt8) :
    toLittleEndian bytes.length (ofLittleEndian bytes) = bytes := by
  induction bytes with
  | nil => rfl
  | cons byte rest ih =>
    have value : ofLittleEndian (byte :: rest) = byte.toNat + 256 * ofLittleEndian rest := by
      simp [ofLittleEndian, Nat.ofDigits_cons]
    have low : UInt8.ofNat (byte.toNat + 256 * ofLittleEndian rest) = byte := by
      apply UInt8.toNat_inj.mp
      have small := byte.toNat_lt
      rw [UInt8.toNat_ofNat']
      omega
    have high : (byte.toNat + 256 * ofLittleEndian rest) / 256 = ofLittleEndian rest := by
      have small := byte.toNat_lt
      omega
    rw [value, List.length_cons, toLittleEndian, low, high, ih]

/-- The `size` bytes at `offset`, when the list holds all of them. -/
def sliceAt (bytes : List UInt8) (offset size : Nat) : Option (List.Vector UInt8 size) :=
  if held : offset + size ≤ bytes.length then
    some ⟨(bytes.drop offset).take size, by simp; omega⟩
  else none

/-! A slice skips the parts before its own, which is then at the front. -/

@[simp] theorem slice_front (part after : List UInt8) (sized : part.length = size) :
    sliceAt (part ++ after) 0 size = some ⟨part, sized⟩ := by
  subst sized
  simp [sliceAt]

@[simp] theorem slice_alone (part : List UInt8) (sized : part.length = size) :
    sliceAt part 0 size = some ⟨part, sized⟩ := by
  simpa using slice_front part [] sized

@[simp] theorem slice_behind (before after : List UInt8) (past : before.length ≤ offset) :
    sliceAt (before ++ after) offset size = sliceAt after (offset - before.length) size := by
  obtain ⟨behind, rfl⟩ := Nat.exists_eq_add_of_le past
  simp [sliceAt, Nat.add_assoc]

@[simp] theorem slice_byte (byte : UInt8) (after : List UInt8) :
    sliceAt (byte :: after) 0 1 = some (.cons byte .nil) :=
  slice_front [byte] after rfl

@[simp] theorem slice_behind_byte (byte : UInt8) (after : List UInt8) (past : 0 < offset) :
    sliceAt (byte :: after) offset size = sliceAt after (offset - 1) size :=
  slice_behind [byte] after past

@[simp] theorem vector_eta (part : List.Vector UInt8 size) (sized : part.val.length = size) :
    (⟨part.val, sized⟩ : List.Vector UInt8 size) = part := rfl

end Bytes
