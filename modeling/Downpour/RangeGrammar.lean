import Downpour.Remote

/-!
The grammar of `Content-Range` headers and the evidence of a ranged response, stated
without the parser: which texts denote a byte range, which answers fit a request, and
that the two functions of the source accept exactly these. On a parsed range the
arithmetic of the source stays inside 64 bits.
-/

namespace Downpour.RangeGrammar
open Text Ranges Remote

def Number (text : List Char) : Prop := isDecimal text = true ∧ decimalValue text < 2 ^ 64

inductive Stated : List Char → Option Nat → Prop where
  | unknown : Stated ['*'] none
  | known {total : List Char} (digits : Number total) : Stated total (some (decimalValue total))

inductive Spelled : List Char → List Char → ContentRange → Prop where
  | unsatisfied {total : List Char} (digits : Number total) :
      Spelled ['*'] total (.unsatisfied (decimalValue total))
  | bytes {first last length : List Char} {total : Option Nat} (firstDigits : Number first)
      (lastDigits : Number last) (stated : Stated length total)
      (ordered : decimalValue first ≤ decimalValue last) (small : decimalValue last < 2 ^ 64 - 1)
      (inside : ∀ value ∈ total, decimalValue last < value) :
      Spelled (first ++ '-' :: last) length (.bytes (decimalValue first) (decimalValue last) total)

def Denotes (raw : List Char) (range : ContentRange) : Prop :=
  ∃ unit blanks positions length,
    trim raw = unit ++ List.replicate (blanks + 1) ' ' ++ (positions ++ '/' :: length) ∧
    eqIgnoreAsciiCase unit "bytes".toList = true ∧ Spelled positions length range

theorem parse_decimal_iff (text : List Char) (value : Nat) :
    parseDecimal text = .ok value ↔ Number text ∧ decimalValue text = value := by
  simp only [parseDecimal, Number]
  split
  next bad => simp_all
  next good =>
    split
    next small => simp_all
    next large => simp_all

variable {text positions length : List Char} {range : ContentRange}

theorem number_digits (number : Number text) :
    text ≠ [] ∧ ∀ character ∈ text, isDigit character = true := by
  have decimal := number.1
  simp only [isDecimal, Bool.and_eq_true, Bool.not_eq_true', List.all_eq_true] at decimal
  exact ⟨by rintro rfl; simp at decimal, decimal.2⟩

theorem number_lacks (number : Number text) (other : isDigit character = false) :
    character ∉ text := by
  intro mem
  have digit := (number_digits number).2 character mem
  rw [other] at digit
  cases digit

theorem number_plain (number : Number text) : text ≠ ['*'] := by
  rintro rfl
  exact number_lacks number rfl List.mem_cons_self

theorem range_plain (digits : Number first) :
    first ++ '-' :: last ≠ ['*'] := by
  intro same
  cases first with
  | nil => exact (number_digits digits).1 rfl
  | cons digit rest =>
    simp at same

theorem positions_spelled
    (stated : Stated length total) (found : splitOnce '-' positions = some (first, last))
    (firstRead : parseDecimal first = .ok low) (lastRead : parseDecimal last = .ok high)
    (ordered : ¬ low > high) (small : high ≠ 2 ^ 64 - 1) (inside : ∀ value ∈ total, high < value) :
    Spelled positions length (.bytes low high total) := by
  obtain ⟨firstDigits, rfl⟩ := (parse_decimal_iff _ _).mp firstRead
  obtain ⟨lastDigits, rfl⟩ := (parse_decimal_iff _ _).mp lastRead
  rw [((split_once_iff _ _ _ _).mp found).1]
  have bounded := lastDigits.2
  exact .bytes firstDigits lastDigits stated (by omega) (by omega) inside

theorem parse_parts_iff (positions length : List Char) (range : ContentRange) :
    ContentRange.parseParts positions length = .ok range ↔ Spelled positions length range := by
  unfold ContentRange.parseParts
  simp only [bind, Except.bind, pure, Except.pure, throw, throwThe, MonadExceptOf.throw]
  constructor
  · intro parsed
    by_cases unknown : length = ['*']
    · subst unknown
      rw [if_pos rfl] at parsed
      split at parsed
      · cases parsed
      split at parsed
      next first last found =>
        split at parsed
        · cases parsed
        next low firstRead =>
          split at parsed
          · cases parsed
          next high lastRead =>
            split_ifs at parsed with reversed largest
            cases parsed
            exact positions_spelled .unknown found firstRead lastRead reversed largest nofun
      · cases parsed
    · rw [if_neg unknown] at parsed
      cases read : parseDecimal length with
      | error error => simp [read] at parsed
      | ok total =>
        obtain ⟨digits, rfl⟩ := (parse_decimal_iff _ _).mp read
        simp only [read, Functor.map, Except.map] at parsed
        split at parsed
        next star =>
          subst star
          cases parsed
          exact .unsatisfied digits
        split at parsed
        next first last found =>
          split at parsed
          · cases parsed
          next low firstRead =>
            split at parsed
            · cases parsed
            next high lastRead =>
              split_ifs at parsed with reversed largest beyond
              cases parsed
              refine positions_spelled (.known digits) found firstRead lastRead reversed largest ?_
              rintro value ⟨rfl⟩
              exact Nat.not_le.mp beyond
        · cases parsed
  · intro spelled
    cases spelled with
    | unsatisfied digits => simp [number_plain digits, (parse_decimal_iff _ _).mpr ⟨digits, rfl⟩]
    | @bytes first last _ _ firstDigits lastDigits stated ordered small inside =>
      have cut := (split_once_iff '-' _ first last).mpr ⟨rfl, number_lacks firstDigits rfl⟩
      have firstRead := (parse_decimal_iff _ _).mpr ⟨firstDigits, rfl⟩
      have lastRead := (parse_decimal_iff _ _).mpr ⟨lastDigits, rfl⟩
      cases stated with
      | unknown =>
        simp only [↓reduceIte, if_neg (range_plain firstDigits), cut, firstRead, lastRead]
        rw [if_neg (by omega), if_neg (by omega)]
      | known digits =>
        have below := inside _ rfl
        simp only [if_neg (number_plain digits), if_neg (range_plain firstDigits), cut, firstRead,
          lastRead, (parse_decimal_iff _ _).mpr ⟨digits, rfl⟩, Functor.map, Except.map]
        rw [if_neg (by omega), if_neg (by omega), if_neg (by omega)]

theorem stated_parts (stated : Stated length total) :
    length ≠ [] ∧ ∀ character ∈ length, isDigit character = true ∨ character = '*' := by
  cases stated with
  | unknown => simp
  | known digits =>
    exact ⟨(number_digits digits).1, fun _ mem => Or.inl ((number_digits digits).2 _ mem)⟩

theorem spelled_parts (spelled : Spelled positions length range) :
    positions ≠ [] ∧ length ≠ [] ∧ ∀ character ∈ positions ++ length,
      isDigit character = true ∨ character = '-' ∨ character = '*' := by
  cases spelled with
  | unsatisfied digits =>
    obtain ⟨some, every⟩ := number_digits digits
    exact ⟨by simp, some, by simpa using fun character mem => Or.inl (every character mem)⟩
  | bytes firstDigits lastDigits stated ordered small inside =>
    obtain ⟨some, every⟩ := stated_parts stated
    refine ⟨by simp, some, fun character mem => ?_⟩
    simp only [List.mem_append, List.mem_cons] at mem
    rcases mem with (front | dash | back) | behind
    · exact Or.inl ((number_digits firstDigits).2 character front)
    · exact Or.inr (Or.inl dash)
    · exact Or.inl ((number_digits lastDigits).2 character back)
    · exact (every character behind).imp_right Or.inr

theorem spelled_plain (spelled : Spelled positions length range) :
    '/' ∉ positions ∧ ' ' ∉ positions ∧ positions.any isAsciiWhitespace = false ∧
      length.any isAsciiWhitespace = false := by
  have parts := (spelled_parts spelled).2.2
  have blank : ∀ character ∈ positions ++ length, isAsciiWhitespace character = false := by
    intro character mem
    rcases parts character mem with digit | rfl | rfl
    · simp only [isDigit, isAsciiWhitespace] at digit ⊢
      simp at digit ⊢
      omega
    · rfl
    · rfl
  simp only [List.any_eq_false, Bool.not_eq_true]
  refine ⟨?_, ?_, fun character mem => blank character (by simp [mem]),
    fun character mem => blank character (by simp [mem])⟩
  · intro mem
    have odd := parts '/' (by simp [mem])
    revert odd
    decide
  · intro mem
    have odd := parts ' ' (by simp [mem])
    revert odd
    decide

theorem unit_unspaced (named : eqIgnoreAsciiCase unit "bytes".toList = true) :
    ' ' ∉ unit := by
  intro mem
  simp only [eqIgnoreAsciiCase, decide_eq_true_eq] at named
  have found : lowerAscii ' ' ∈ toAsciiLowercase unit := List.mem_map_of_mem mem
  rw [named] at found
  revert found
  decide

theorem from_str_iff (raw : List Char) (range : ContentRange) :
    ContentRange.fromStr raw = .ok range ↔ Denotes raw range := by
  unfold ContentRange.fromStr
  simp only [bind, Except.bind, throw, throwThe, MonadExceptOf.throw]
  constructor
  · intro parsed
    split at parsed
    · cases parsed
    split at parsed
    next unit rest spaced =>
      split at parsed
      · cases parsed
      next named =>
        split at parsed
        next positions length cut =>
          split_ifs at parsed
          obtain ⟨text, _⟩ := (split_once_iff _ _ _ _).mp spaced
          obtain ⟨body, _⟩ := (split_once_iff _ _ _ _).mp cut
          have blanks : rest.takeWhile (· == ' ') =
              List.replicate (rest.takeWhile (· == ' ')).length ' ' :=
            List.eq_replicate_of_mem fun character mem => by
              simpa using List.mem_takeWhile_imp mem
          refine ⟨unit, (rest.takeWhile (· == ' ')).length, positions, length, ?_,
            by simpa using named, (parse_parts_iff _ _ _).mp parsed⟩
          rw [List.replicate_succ, ← blanks, ← body, List.append_assoc, List.cons_append,
            List.takeWhile_append_dropWhile]
          exact text
        · cases parsed
    · cases parsed
  · rintro ⟨unit, blanks, positions, length, text, named, spelled⟩
    obtain ⟨slash, space, front, back⟩ := spelled_plain spelled
    obtain ⟨some, more, _⟩ := spelled_parts spelled
    have spaced : splitOnce ' ' (trim raw) =
        Option.some (unit, List.replicate blanks ' ' ++ (positions ++ '/' :: length)) := by
      rw [split_once_iff, text, List.replicate_succ]
      exact ⟨by simp, unit_unspaced named⟩
    have dropped : (List.replicate blanks ' ' ++ (positions ++ '/' :: length)).dropWhile (· == ' ') =
        positions ++ '/' :: length := by
      have blank : (List.replicate blanks ' ').dropWhile (· == ' ') = [] := by simp
      rw [List.dropWhile_append, blank, List.isEmpty_nil, if_pos rfl]
      cases positions with
      | nil => exact absurd rfl some
      | cons first others =>
        have solid : first ≠ ' ' := fun same => space (same ▸ List.mem_cons_self)
        simp [solid]
    have present : trim raw ≠ [] := by simp [text]
    simp only [if_neg present, spaced, named, dropped, (split_once_iff _ _ _ _).mpr ⟨rfl, slash⟩,
      front, back]
    simp [some, more, (parse_parts_iff _ _ _).mpr spelled]


/-! The displayed form, and the arithmetic on a parsed range. -/

def lengthText : Option Nat → List Char
  | some total => decimalText total
  | none => ['*']

def display : ContentRange → List Char
  | .bytes first last completeLength =>
    "bytes ".toList ++
      (decimalText first ++ '-' :: decimalText last ++ '/' :: lengthText completeLength)
  | .unsatisfied completeLength => "bytes ".toList ++ (['*'] ++ '/' :: decimalText completeLength)

def Sound : ContentRange → Prop
  | .bytes first last completeLength => first ≤ last ∧ last < 2 ^ 64 - 1 ∧
      ∀ total ∈ completeLength, last < total ∧ total < 2 ^ 64
  | .unsatisfied completeLength => completeLength < 2 ^ 64

theorem spelled_sound (spelled : Spelled positions length range) : Sound range := by
  cases spelled with
  | unsatisfied digits => exact digits.2
  | bytes firstDigits lastDigits stated ordered small inside =>
    refine ⟨ordered, small, fun total known => ⟨inside total known, ?_⟩⟩
    cases stated with
    | unknown => cases known
    | known digits =>
      cases known
      exact digits.2

theorem decimal_text_number (fits : value < 2 ^ 64) :
    Number (decimalText value) ∧ decimalValue (decimalText value) = value := by
  have read : decimalValue (decimalText value) = value := Nat.ofDigitChars_ten_toDigits
  refine ⟨⟨?_, by rw [read]; exact fits⟩, read⟩
  simp only [isDecimal, Bool.and_eq_true, Bool.not_eq_true', List.isEmpty_eq_false_iff,
    List.all_eq_true]
  refine ⟨Nat.toDigits_ne_nil, fun character mem => ?_⟩
  have digit := Nat.isDigit_of_mem_toDigits (by decide) (by decide) mem
  simp only [Char.isDigit, Bool.and_eq_true, decide_eq_true_eq, UInt32.le_iff_toNat_le] at digit
  simp only [isDigit, Bool.and_eq_true, decide_eq_true_eq]
  exact digit

theorem sound_spelled (sound : Sound range) :
    ∃ positions length, display range = "bytes ".toList ++ (positions ++ '/' :: length) ∧
      Spelled positions length range := by
  cases range with
  | unsatisfied completeLength =>
    obtain ⟨digits, read⟩ := decimal_text_number sound
    have spelled := Spelled.unsatisfied digits
    rw [read] at spelled
    exact ⟨_, _, rfl, spelled⟩
  | bytes first last completeLength =>
    obtain ⟨ordered, small, inside⟩ := sound
    obtain ⟨firstDigits, firstRead⟩ := decimal_text_number (show first < 2 ^ 64 by omega)
    obtain ⟨lastDigits, lastRead⟩ := decimal_text_number (show last < 2 ^ 64 by omega)
    have stated : Stated (lengthText completeLength) completeLength := by
      cases completeLength with
      | none => exact .unknown
      | some total =>
        obtain ⟨digits, read⟩ := decimal_text_number (inside total rfl).2
        have known := Stated.known digits
        rw [read] at known
        exact known
    have spelled := Spelled.bytes firstDigits lastDigits stated (by omega) (by omega)
      fun value known => by rw [lastRead]; exact (inside value known).1
    rw [firstRead, lastRead] at spelled
    exact ⟨_, _, rfl, spelled⟩

theorem display_read (sound : Sound range) :
    ContentRange.fromStr (display range) = .ok range := by
  obtain ⟨positions, length, shown, spelled⟩ := sound_spelled sound
  rw [from_str_iff]
  refine ⟨"bytes".toList, 0, positions, length, ?_, by decide, spelled⟩
  obtain ⟨_, present, parts⟩ := spelled_parts spelled
  obtain ⟨front, last, rfl⟩ := List.eq_nil_or_concat length |>.resolve_left present
  have back : isWhitespace last = false := by
    rcases parts last (by simp) with digit | rfl | rfl
    · simp only [isDigit, isWhitespace] at digit ⊢
      simp at digit ⊢
      omega
    · rfl
    · rfl
  have shape : display range =
      'b' :: (("ytes ".toList ++ positions ++ '/' :: front) ++ [last]) := by
    rw [shown]
    simp
  rw [shape, trim_solid (by decide) back]
  simp

def subU64 (left right : Nat) : Option Nat := if right ≤ left then some (left - right) else none

def addU64 (left right : Nat) : Option Nat :=
  if left + right < 2 ^ 64 then some (left + right) else none

def lenU64 : ContentRange → Option (Option Nat)
  | .bytes first last _ => do
      let distance ← subU64 last first
      let length ← addU64 distance 1
      return some length
  | .unsatisfied _ => some none

/-- `ContentRange::is_consistent_with` with the operations of the machine: only the
last position of a suffix is computed without saturation. -/
def isConsistentWithU64 (range : ContentRange) (requested : ByteRangeSpec) :
    Option (Except RangeMismatch Unit) :=
  match range, requested with
  | .bytes first last (some total), .suffix len => do
      let wantLast ← subU64 total 1
      return if first ≠ total - len then .error (.wrongStart (total - len) first)
        else if last ≠ wantLast then .error (.endBeyondRequest wantLast last)
        else .ok ()
  | _, _ => some (range.isConsistentWith requested)

theorem sound_len (sound : Sound range) : lenU64 range = some range.len := by
  cases range with
  | unsatisfied completeLength => rfl
  | bytes first last completeLength =>
    obtain ⟨ordered, small, _⟩ := sound
    have fits : last - first + 1 < 2 ^ 64 := by omega
    simp only [lenU64, subU64, addU64, if_pos ordered, bind, Option.bind, if_pos fits]
    rfl

theorem sound_consistent (sound : Sound range) (requested : ByteRangeSpec) :
    isConsistentWithU64 range requested = some (range.isConsistentWith requested) := by
  unfold isConsistentWithU64
  split
  next first last total len =>
    have positive : 1 ≤ total := Nat.one_le_of_lt (sound.2.2 total rfl).1
    simp [subU64, positive, ContentRange.isConsistentWith]
  next => rfl

/-- A header parses exactly if it denotes a range, and then to that range. A parsed
range reads back from its displayed form, and neither its length nor its comparison with
a request leaves 64 bits. -/
theorem content_range_exact :
    (∀ raw range, ContentRange.fromStr raw = .ok range ↔ Denotes raw range) ∧
      ∀ raw range, ContentRange.fromStr raw = .ok range →
        ContentRange.fromStr (display range) = .ok range ∧ lenU64 range = some range.len ∧
          ∀ requested, isConsistentWithU64 range requested =
            some (range.isConsistentWith requested) := by
  refine ⟨from_str_iff, ?_⟩
  intro raw range parsed
  obtain ⟨_, _, _, _, _, _, spelled⟩ := (from_str_iff raw range).mp parsed
  have sound := spelled_sound spelled
  exact ⟨display_read sound, sound_len sound, sound_consistent sound⟩

example : ContentRange.fromStr "BYTES  5-9/*".toList = .ok (.bytes 5 9 none) := by decide

/-! The evidence of a ranged response. -/

def Unencoded (contentEncoding : Option (List Char)) : Prop :=
  ∀ encoding ∈ contentEncoding,
    trim encoding = [] ∨ eqIgnoreAsciiCase (trim encoding) "identity".toList = true

/-- Bytes `first` to `last` of `total` are what was asked for, or a front of it. -/
def Answers (requested : ByteRangeSpec) (first last total : Nat) : Prop :=
  match requested with
  | .fromTo wantFirst wantLast => first = wantFirst ∧ last ≤ wantLast
  | .from wantFirst => first = wantFirst
  | .suffix len => first = (if len > total then 0 else total - len) ∧ last = total - 1

theorem refused_encoding_iff (contentEncoding : Option (List Char)) :
    refusedEncoding contentEncoding = none ↔ Unencoded contentEncoding := by
  cases contentEncoding with
  | none => simp [refusedEncoding, Unencoded]
  | some encoding =>
    simp only [refusedEncoding, Unencoded, Option.mem_some_iff, forall_eq']
    by_cases blank : trim encoding = []
    · simp [blank]
    · cases eqIgnoreAsciiCase (trim encoding) "identity".toList <;> simp [blank]

theorem consistent_iff (first last total : Nat) (requested : ByteRangeSpec) :
    (ContentRange.bytes first last (some total)).isConsistentWith requested = .ok () ↔
      Answers requested first last total := by
  have start (len : Nat) : total - len = if len > total then 0 else total - len := by
    split <;> omega
  cases requested with
  | fromTo wantFirst wantLast =>
    simp only [ContentRange.isConsistentWith, Answers]
    split_ifs <;> simp_all
  | «from» wantFirst =>
    simp only [ContentRange.isConsistentWith, Answers]
    split_ifs <;> simp_all
  | suffix len =>
    simp only [ContentRange.isConsistentWith, Answers, ← start len]
    split_ifs <;> simp_all

/-- A response proves range support exactly if it is a plain `206` whose header denotes
the bytes that were asked for and whose body has their length; the proof then holds
these numbers. -/
theorem range_proof_exact (requested : ByteRangeSpec) (status : Nat)
    (contentRange contentEncoding : Option (List Char)) (bodyLen : Nat) (proof : RangeProof) :
    RangeProof.fromObservedResponse requested status contentRange contentEncoding bodyLen =
        .ok proof ↔
      status = 206 ∧ Unencoded contentEncoding ∧ ∃ header first last total,
        contentRange = some header ∧ Denotes header (.bytes first last (some total)) ∧
        Answers requested first last total ∧ last < total ∧ bodyLen = last - first + 1 ∧
        proof = ⟨total, .bytes first last (some total), requested,
          ⟨requested, status, contentRange, contentEncoding, bodyLen⟩⟩ := by
  rw [← refused_encoding_iff]
  constructor
  · intro proven
    unfold RangeProof.fromObservedResponse at proven
    split at proven
    · cases proven
    next ok =>
      split at proven
      · cases proven
      next plain =>
        split at proven
        · cases proven
        next header =>
          split at proven
          · cases proven
          next observed parsed =>
            split at proven
            · cases proven
            next consistent =>
              split at proven
              next total expected known length =>
                split at proven
                · cases proven
                next counted =>
                  cases proven
                  cases observed with
                  | unsatisfied completeLength => cases length
                  | bytes first last completeLength =>
                    cases known
                    cases length
                    obtain ⟨_, _, _, _, _, _, spelled⟩ := (from_str_iff _ _).mp parsed
                    exact ⟨not_not.mp ok, plain, header, first, last, total, rfl,
                      (from_str_iff _ _).mp parsed, (consistent_iff _ _ _ _).mp consistent,
                      ((spelled_sound spelled).2.2 total rfl).1, not_not.mp counted, rfl⟩
              · cases proven
  · rintro ⟨rfl, plain, header, first, last, total, rfl, denotes, answers, _, rfl, rfl⟩
    simp only [RangeProof.fromObservedResponse, ne_eq, not_true_eq_false, ↓reduceIte, plain,
      (from_str_iff _ _).mpr denotes, (consistent_iff _ _ _ _).mpr answers,
      ContentRange.completeLength, ContentRange.len]

end Downpour.RangeGrammar
