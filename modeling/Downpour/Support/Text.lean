import Mathlib

/-!
Text as a list of characters: trimming, cutting at a separator, comparison
without regard to ASCII case, and decimal numbers of bounded width.
-/

namespace Text

def isWhitespace (character : Char) : Bool :=
  let code := character.toNat
  (9 ≤ code && code ≤ 13) || code == 0x20 || code == 0x85 || code == 0xA0 || code == 0x1680 ||
    (0x2000 ≤ code && code ≤ 0x200A) || code == 0x2028 || code == 0x2029 || code == 0x202F ||
    code == 0x205F || code == 0x3000

def isAsciiWhitespace (character : Char) : Bool :=
  let code := character.toNat
  code == 9 || code == 10 || code == 12 || code == 13 || code == 32

def trim (text : List Char) : List Char :=
  ((text.dropWhile isWhitespace).reverse.dropWhile isWhitespace).reverse

def splitOnce (separator : Char) : List Char → Option (List Char × List Char)
  | [] => none
  | character :: rest =>
    if character = separator then some ([], rest)
    else (splitOnce separator rest).map fun parts => (character :: parts.1, parts.2)

def splitAll (separator : Char) : List Char → List (List Char)
  | [] => [[]]
  | character :: rest =>
    if character = separator then [] :: splitAll separator rest
    else match splitAll separator rest with
      | [] => [[character]]
      | part :: parts => (character :: part) :: parts

def lowerAscii (character : Char) : Char :=
  if 'A'.toNat ≤ character.toNat ∧ character.toNat ≤ 'Z'.toNat then
    Char.ofNat (character.toNat + 32)
  else character

def toAsciiLowercase (text : List Char) : List Char := text.map lowerAscii

def eqIgnoreAsciiCase (left right : List Char) : Bool :=
  toAsciiLowercase left = toAsciiLowercase right

def isDigit (character : Char) : Bool :=
  '0'.toNat ≤ character.toNat && character.toNat ≤ '9'.toNat

def isDecimal (text : List Char) : Bool := !text.isEmpty && text.all isDigit

def decimalValue (text : List Char) : Nat :=
  text.foldl (fun value digit => 10 * value + (digit.toNat - '0'.toNat)) 0

/-- A decimal number below `2 ^ width`, with an optional plus sign. -/
def parseUnsigned (width : Nat) (text : List Char) : Option Nat :=
  let digits := match text with
    | '+' :: rest => rest
    | _ => text
  if isDecimal digits && decide (decimalValue digits < 2 ^ width) then some (decimalValue digits)
  else none

def decimalText (value : Nat) : List Char := (Nat.toDigits 10 value)

theorem split_once_iff (separator : Char) (text before after : List Char) :
    splitOnce separator text = some (before, after) ↔
      text = before ++ separator :: after ∧ separator ∉ before := by
  induction text generalizing before with
  | nil => simp [splitOnce]
  | cons character rest ih =>
    by_cases hit : character = separator
    · subst hit
      simp only [splitOnce, ↓reduceIte, Option.some.injEq, Prod.mk.injEq]
      constructor
      · rintro ⟨rfl, rfl⟩
        simp
      · rintro ⟨same, absent⟩
        cases before with
        | nil => simpa using same
        | cons first others =>
          rw [List.cons_append, List.cons.injEq] at same
          exact absurd List.mem_cons_self (same.1 ▸ absent)
    · simp only [splitOnce, hit, ↓reduceIte, Option.map_eq_some_iff, Prod.exists, Prod.mk.injEq]
      constructor
      · rintro ⟨front, behind, found, rfl, rfl⟩
        obtain ⟨rfl, absent⟩ := (ih front).mp found
        exact ⟨rfl, by simp [absent, Ne.symm hit]⟩
      · rintro ⟨same, absent⟩
        cases before with
        | nil =>
          rw [List.nil_append, List.cons.injEq] at same
          exact absurd same.1 hit
        | cons first others =>
          rw [List.cons_append, List.cons.injEq] at same
          rw [List.mem_cons, not_or] at absent
          exact ⟨others, after, (ih others).mpr ⟨same.2, absent.2⟩, by rw [same.1], rfl⟩

theorem trim_solid (front : isWhitespace first = false) (back : isWhitespace last = false) :
    trim (first :: (middle ++ [last])) = first :: (middle ++ [last]) := by
  have reversed : (first :: (middle ++ [last])).reverse = last :: (middle.reverse ++ [first]) := by simp
  rw [trim, List.dropWhile_cons_of_neg (by simp [front]), reversed,
    List.dropWhile_cons_of_neg (by simp [back])]
  simp

end Text
