import Downpour.Support.Bytes

/-!
Concise binary object representation: the definite heads of data items and the
shortest-form encoding of an item. A library that writes and reads values is code of a
third party, described by what it makes of a value and of an encoding.
-/

namespace Cbor
open Bytes

def toBigEndian (width value : Nat) : List UInt8 := (toLittleEndian width value).reverse

def ofBigEndian (bytes : List UInt8) : Nat := ofLittleEndian bytes.reverse

/-- The bytes that follow an initial byte with this additional information. -/
def argumentWidth : Nat → Option Nat
  | 24 => some 1
  | 25 => some 2
  | 26 => some 4
  | 27 => some 8
  | _ => none

def initial (major info : Nat) : UInt8 := UInt8.ofNat (32 * major + info)

/-- A head of definite form; every width that holds the value will do. -/
inductive IsHead (major value : Nat) : List UInt8 → Prop where
  | short (small : value < 24) : IsHead major value [initial major value]
  | long (info : Nat) (payload : List UInt8) (sized : argumentWidth info = some payload.length)
      (read : ofBigEndian payload = value) : IsHead major value (initial major info :: payload)

def longHead (major info width value : Nat) : List UInt8 :=
  initial major info :: toBigEndian width value

def head (major value : Nat) : List UInt8 :=
  if value < 24 then [initial major value]
  else if value < 2 ^ 8 then longHead major 24 1 value
  else if value < 2 ^ 16 then longHead major 25 2 value
  else if value < 2 ^ 32 then longHead major 26 4 value
  else longHead major 27 8 value

theorem long_head_is_head {major info width value : Nat} (sized : argumentWidth info = some width)
    (fits : value < 256 ^ width) : IsHead major value (longHead major info width value) := by
  refine .long info _ (by simpa [toBigEndian] using sized) ?_
  rw [ofBigEndian, toBigEndian, List.reverse_reverse, little_endian_read width value fits]

theorem head_is_head (major : Nat) {value : Nat} (fits : value < 2 ^ 64) :
    IsHead major value (head major value) := by
  unfold head
  split
  next small => exact .short small
  split
  next small => exact long_head_is_head rfl (by omega)
  split
  next small => exact long_head_is_head rfl (by omega)
  split
  next small => exact long_head_is_head rfl (by omega)
  · exact long_head_is_head rfl (by omega)

theorem argument_width_info {info width : Nat} (sized : argumentWidth info = some width) :
    24 ≤ info ∧ info < 28 := by
  unfold argumentWidth at sized
  split at sized
  all_goals first | omega | cases sized

theorem initial_parts {major info : Nat} (eight : major < 8) (small : info < 32) :
    (initial major info).toNat / 32 = major ∧ (initial major info).toNat % 32 = info := by
  have whole : (initial major info).toNat = 32 * major + info := by
    rw [initial, UInt8.toNat_ofNat', Nat.mod_eq_of_lt (by omega)]
  omega

/-! Data items. -/

inductive Atom where
  | unsigned
  | negative
  | simple
  deriving DecidableEq

inductive Item where
  | atom (kind : Atom) (value : UInt64)
  | bytes (content : List UInt8)
  | text (content : List Char)
  | array (items : List Item)

def Item.unsigned (value : UInt64) : Item := .atom .unsigned value

def utf8 (text : List Char) : List UInt8 := text.flatMap String.utf8EncodeChar

def Item.major : Item → Nat
  | .atom .unsigned _ => 0
  | .atom .negative _ => 1
  | .bytes _ => 2
  | .text _ => 3
  | .array _ => 4
  | .atom .simple _ => 7

def Item.argument : Item → Nat
  | .atom _ value => value.toNat
  | .bytes content => content.length
  | .text content => (utf8 content).length
  | .array items => items.length

mutual

def Item.body : Item → List UInt8
  | .bytes content => content
  | .text content => utf8 content
  | .array items => encodeAll items
  | _ => []

def encodeAll : List Item → List UInt8
  | [] => []
  | item :: rest => head item.major item.argument ++ item.body ++ encodeAll rest

end

def Item.encode (item : Item) : List UInt8 := head item.major item.argument ++ item.body

theorem head_positive (major value : Nat) : 0 < (head major value).length := by
  unfold head longHead
  repeat' split
  all_goals simp

theorem head_at_most_nine (major value : Nat) : (head major value).length ≤ 9 := by
  unfold head longHead
  split_ifs <;> simp [toBigEndian]

theorem encode_all_length (items : List Item) : items.length ≤ (encodeAll items).length := by
  induction items with
  | nil => simp
  | cons item rest ih =>
    have := head_positive item.major item.argument
    simp only [encodeAll, List.length_append, List.length_cons]
    omega

/-! Reading a head, whatever its width. -/

def readHead : List UInt8 → Option ((Nat × Nat) × List UInt8)
  | [] => none
  | first :: rest =>
    if first.toNat % 32 < 24 then some ((first.toNat / 32, first.toNat % 32), rest)
    else (argumentWidth (first.toNat % 32)).bind fun width =>
      if rest.length < width then none
      else some ((first.toNat / 32, ofBigEndian (rest.take width)), rest.drop width)

theorem read_is_head (eight : major < 8) (written : IsHead major value bytes) (rest : List UInt8) :
    readHead (bytes ++ rest) = some ((major, value), rest) := by
  cases written with
  | short small =>
    obtain ⟨majors, infos⟩ := initial_parts eight (show value < 32 by omega)
    simp [readHead, majors, infos, small]
  | long info payload sized read =>
    have range := argument_width_info sized
    obtain ⟨majors, infos⟩ := initial_parts eight (show info < 32 by omega)
    simp [readHead, majors, infos, sized, read, show ¬ info < 24 by omega]

/-! Libraries. -/

/-- A library that writes and reads values: it writes the shortest encoding, returns a value
with the number of bytes it took, and reads back what was written of a value it may hold. -/
structure Library {Value : Type} (item : Value → Item) (Holds : Value → Prop) where
  write : Value → Except String (List UInt8)
  read : List UInt8 → Except String (Value × Nat)
  shortest : ∀ value, write value = .ok (item value).encode
  back : ∀ value, Holds value → (item value).encode.length < 2 ^ 64 →
    read (item value).encode = .ok (value, (item value).encode.length)

end Cbor
