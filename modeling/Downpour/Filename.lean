import Downpour.Completion

/-!
The name a download gets from an arbitrary text: its last path component without
forbidden characters, without blanks at its ends, cut to the byte budget, and
marked when it is the name of a device. Texts are lists of characters; their
length in bytes is `utf8Length`.
-/

namespace Downpour.Filename
open Text Completion

def defaultName : List Char := ['d', 'o', 'w', 'n', 'l', 'o', 'a', 'd']

def maxNameBytes : Nat := 255

def partSuffixBytes : Nat := 7

def maxTruncatedBytes : Nat := maxNameBytes - 1 - partSuffixBytes

def reservedStems : List (List Char) :=
  let ports := ['1', '2', '3', '4', '5', '6', '7', '8', '9']
  [['C', 'O', 'N'], ['P', 'R', 'N'], ['A', 'U', 'X'], ['N', 'U', 'L']] ++
    ports.map (['C', 'O', 'M', ·]) ++ ports.map (['L', 'P', 'T', ·])

def illegal : List Char := ['<', '>', ':', '"', '|', '?', '*', '/', '\\']

def isControl (character : Char) : Bool :=
  character.toNat < 0x20 || (0x7f ≤ character.toNat && character.toNat ≤ 0x9f)

def isSeparator (character : Char) : Bool := character == '/' || character == '\\'

def isTrailing (character : Char) : Bool := character == '.' || character == ' '

def forbidden (character : Char) : Bool := isControl character || illegal.contains character

def neutral (character : Char) : Char := if forbidden character then '_' else character

def trimmed (raw : List Char) : List Char :=
  (((raw.rtakeWhile (!isSeparator ·)).map neutral).dropWhile (· == ' ')).rdropWhile isTrailing

/-- The longest start of the text that ends between characters within the budget. -/
def truncateAtCharBoundary : List Char → Nat → List Char
  | [], _ => []
  | character :: rest, maxBytes =>
    if character.utf8Size ≤ maxBytes then
      character :: truncateAtCharBoundary rest (maxBytes - character.utf8Size)
    else []

def maxGroupBytes : Nat := 8

/-- What is left of the name in front of at most this many extension groups. -/
def extensionStart : Nat → List Char → List Char
  | 0, head => head
  | rounds + 1, head =>
    let group := head.rtakeWhile (· != '.')
    let front := (head.rdropWhile (· != '.')).dropLast
    -- There is no dot, or the only one is at the start.
    if front = [] ∨ group = [] ∨ utf8Length group > maxGroupBytes ∨ ' ' ∈ group then head
    else extensionStart rounds front

def extensionToKeep (name : List Char) : List Char := name.drop (extensionStart 2 name).length

def truncateKeepingExtension (name : List Char) : List Char :=
  let extension := extensionToKeep name
  let headBudget := maxTruncatedBytes - utf8Length extension
  let head := name.take (name.length - extension.length)
  (truncateAtCharBoundary head headBudget).rdropWhile isTrailing ++ extension

def stem (name : List Char) : List Char := name.takeWhile (· != '.')

def isReservedStem (name : List Char) : Bool :=
  reservedStems.any fun reserved => eqIgnoreAsciiCase (stem name) reserved

def sized (raw : List Char) : List Char :=
  if utf8Length (trimmed raw) > maxNameBytes then truncateKeepingExtension (trimmed raw)
  else trimmed raw

def clean (raw : List Char) : Option (List Char) :=
  if sized raw = [] then none
  else some (if isReservedStem (sized raw) then '_' :: sized raw else sized raw)

def sanitise (raw : List Char) : List Char := (clean raw).getD defaultName

/-! Lengths in bytes. -/

theorem utf8_append (left right : List Char) :
    utf8Length (left ++ right) = utf8Length left + utf8Length right := by
  simp [utf8Length]

theorem utf8_cons (character : Char) (text : List Char) :
    utf8Length (character :: text) = character.utf8Size + utf8Length text := by
  simp [utf8Length]

theorem truncate_fits (text : List Char) (maxBytes : Nat) :
    truncateAtCharBoundary text maxBytes <+: text ∧
      utf8Length (truncateAtCharBoundary text maxBytes) ≤ maxBytes := by
  induction text generalizing maxBytes with
  | nil => exact ⟨List.prefix_rfl, Nat.zero_le _⟩
  | cons character rest ih =>
    rw [truncateAtCharBoundary]
    split
    next room =>
      obtain ⟨start, fits⟩ := ih (maxBytes - character.utf8Size)
      rw [utf8_cons]
      exact ⟨(List.prefix_cons_inj character).mpr start, by omega⟩
    next => exact ⟨List.nil_prefix, Nat.zero_le _⟩

/-! Names that the first three steps leave as they are. -/

structure Tidy (name : List Char) : Prop where
  legal : ∀ character ∈ name, forbidden character = false
  front : name.head? ≠ some ' '
  back : ∀ last ∈ name.getLast?, isTrailing last = false

theorem neutral_legal (character : Char) : forbidden (neutral character) = false := by
  unfold neutral
  split
  next => rfl
  next allowed => exact Bool.eq_false_iff.mpr allowed

theorem prefix_front {part name : List Char} (start : part <+: name) (nonempty : part ≠ []) :
    part.head? = name.head? := by
  obtain ⟨rest, rfl⟩ := start
  rw [List.head?_append_of_ne_nil _ nonempty]

theorem stripped_back (text : List Char) :
    ∀ last ∈ (text.rdropWhile isTrailing).getLast?, isTrailing last = false := by
  intro last found
  obtain ⟨nonempty, rfl⟩ := List.mem_getLast?_eq_getLast found
  exact Bool.eq_false_iff.mpr (List.rdropWhile_last_not isTrailing text nonempty)

theorem trimmed_tidy (raw : List Char) : Tidy (trimmed raw) := by
  have start : trimmed raw <+: ((raw.rtakeWhile (!isSeparator ·)).map neutral).dropWhile (· == ' ') :=
    List.rdropWhile_prefix isTrailing _
  refine ⟨?_, ?_, stripped_back _⟩
  · intro character mem
    obtain ⟨before, _, rfl⟩ := List.mem_map.mp ((List.dropWhile_suffix _).mem (start.mem mem))
    exact neutral_legal before
  · intro blank
    have nonempty : trimmed raw ≠ [] := by
      intro empty
      rw [empty] at blank
      cases blank
    have kept := List.head?_dropWhile_not (· == ' ') ((raw.rtakeWhile (!isSeparator ·)).map neutral)
    rw [← prefix_front start nonempty, blank] at kept
    cases kept

theorem trimmed_self (tidy : Tidy name) : trimmed name = name := by
  have whole : name.rtakeWhile (!isSeparator ·) = name := by
    rw [List.rtakeWhile_eq_self_iff]
    intro character mem
    have legal := tidy.legal character mem
    simp only [forbidden, illegal, Bool.or_eq_false_iff, List.contains_eq_mem, decide_eq_false_iff_not,
      List.mem_cons, not_or] at legal
    simp [isSeparator, legal]
  have same : name.map neutral = name := by
    rw [List.map_congr_left (g := id), List.map_id]
    intro character mem
    simp [neutral, tidy.legal character mem]
  have unblank : name.dropWhile (· == ' ') = name := by
    cases name with
    | nil => rfl
    | cons first rest =>
      refine List.dropWhile_cons_of_neg fun blank => tidy.front ?_
      rw [List.head?_cons, eq_of_beq blank]
  rw [trimmed, whole, same, unblank, List.rdropWhile_eq_self_iff]
  intro nonempty
  rw [tidy.back _ (List.getLast_mem_getLast? nonempty)]
  decide

/-! Truncation. -/

theorem extension_split (rounds : Nat) (name : List Char) :
    ∃ extension, name = extensionStart rounds name ++ extension ∧
      utf8Length extension ≤ (maxGroupBytes + 1) * rounds ∧
      (extension = [] ∨ extension.head? = some '.') := by
  induction rounds generalizing name with
  | zero => exact ⟨[], (List.append_nil _).symm, Nat.zero_le _, Or.inl rfl⟩
  | succ rounds ih =>
    simp only [extensionStart]
    split
    next => exact ⟨[], (List.append_nil _).symm, Nat.zero_le _, Or.inl rfl⟩
    next taken =>
      rw [not_or, not_or, not_or] at taken
      obtain ⟨hasFront, _, short, _⟩ := taken
      have nonempty : name.rdropWhile (· != '.') ≠ [] := by
        intro empty
        rw [empty] at hasFront
        exact hasFront rfl
      have dot : (name.rdropWhile (· != '.')).getLast nonempty = '.' := by
        simpa using List.rdropWhile_last_not (· != '.') name nonempty
      have whole : name = (name.rdropWhile (· != '.')).dropLast ++ '.' :: name.rtakeWhile (· != '.') := by
        conv_lhs => rw [← List.rdropWhile_append_rtakeWhile (p := (· != '.')) (l := name),
          ← List.dropLast_append_getLast nonempty, dot]
        simp
      obtain ⟨extension, split, fits, dotted⟩ := ih (name.rdropWhile (· != '.')).dropLast
      refine ⟨extension ++ '.' :: name.rtakeWhile (· != '.'), ?_, ?_, Or.inr ?_⟩
      · rw [← List.append_assoc, ← split]
        exact whole
      · rw [utf8_append, utf8_cons, show Char.utf8Size '.' = 1 from rfl]
        rw [Nat.not_lt] at short
        rw [Nat.mul_succ]
        omega
      · rcases dotted with rfl | dotted
        · rfl
        · rw [List.head?_append, dotted]
          rfl

theorem truncated_split (name : List Char) :
    ∃ head extension, name = head ++ extension ∧ utf8Length extension ≤ 18 ∧
      (extension = [] ∨ extension.head? = some '.') ∧
      truncateKeepingExtension name =
        (truncateAtCharBoundary head (maxTruncatedBytes - utf8Length extension)).rdropWhile isTrailing ++
          extension := by
  obtain ⟨extension, split, fits, dotted⟩ := extension_split 2 name
  have kept : extensionToKeep name = extension := by
    rw [extensionToKeep]
    conv_lhs => rw [split]
    rw [List.drop_append_of_le_length (by rw [← split]), ← split]
    simp
  refine ⟨extensionStart 2 name, extension, split, fits, dotted, ?_⟩
  have front : name.take (name.length - extension.length) = extensionStart 2 name := by
    conv_lhs => rw [split]
    simp
  rw [truncateKeepingExtension, kept, front]

theorem truncated_tidy (tidy : Tidy name) :
    Tidy (truncateKeepingExtension name) ∧
      utf8Length (truncateKeepingExtension name) ≤ maxTruncatedBytes := by
  obtain ⟨head, extension, rfl, short, dotted, result⟩ := truncated_split name
  obtain ⟨start, fits⟩ := truncate_fits head (maxTruncatedBytes - utf8Length extension)
  rw [result]
  generalize truncateAtCharBoundary head (maxTruncatedBytes - utf8Length extension) = cut at start fits ⊢
  have stripped := List.rdropWhile_prefix isTrailing cut
  refine ⟨⟨?_, ?_, ?_⟩, ?_⟩
  · intro character mem
    refine tidy.legal character (List.mem_append.mpr ?_)
    exact (List.mem_append.mp mem).imp_left (stripped.trans start).mem
  · by_cases empty : cut.rdropWhile isTrailing = []
    · rw [empty, List.nil_append]
      rcases dotted with rfl | dotted
      · exact nofun
      · rw [dotted]
        decide
    · have front := (stripped.trans start).trans (List.prefix_append head extension)
      rw [List.head?_append_of_ne_nil _ empty, prefix_front front empty]
      exact tidy.front
  · -- What is last is the end of the extension, or of the head that has been stripped.
    rcases List.eq_nil_or_concat extension with rfl | ⟨front, last, rfl⟩
    · rw [List.append_nil]
      exact stripped_back cut
    · have back := tidy.back
      rw [List.concat_eq_append, ← List.append_assoc, List.getLast?_concat] at back ⊢
      exact back
  · obtain ⟨rest, whole⟩ := stripped
    rw [← whole, utf8_append] at fits
    rw [utf8_append]
    simp only [maxTruncatedBytes, maxNameBytes, partSuffixBytes] at fits ⊢
    omega

theorem sized_tidy (raw : List Char) : Tidy (sized raw) := by
  unfold sized
  split
  · exact (truncated_tidy (trimmed_tidy raw)).1
  · exact trimmed_tidy raw

theorem reserved_marked (name : List Char) : isReservedStem ('_' :: name) = false := by
  rw [isReservedStem, List.any_eq_false]
  intro reserved mem
  have first : stem ('_' :: name) = '_' :: stem name := rfl
  rw [first, eqIgnoreAsciiCase, toAsciiLowercase, List.map_cons]
  fin_cases mem <;> simp [toAsciiLowercase, lowerAscii]

theorem default_tidy : Tidy defaultName := by
  refine ⟨?_, by decide, ?_⟩
  · have all : defaultName.all (!forbidden ·) = true := rfl
    simpa using all
  · intro last found
    cases found
    rfl

theorem sanitise_tidy (raw : List Char) :
    Tidy (sanitise raw) ∧ sanitise raw ≠ [] ∧ isReservedStem (sanitise raw) = false := by
  have tidy := sized_tidy raw
  unfold sanitise clean
  split
  next => exact ⟨default_tidy, by decide, by decide⟩
  next nonempty =>
    cases reserved : isReservedStem (sized raw) with
    | false => exact ⟨tidy, nonempty, reserved⟩
    | true =>
      refine ⟨⟨?_, nofun, ?_⟩, nofun, reserved_marked _⟩
      · intro character mem
        rcases List.mem_cons.mp mem with rfl | mem
        · decide
        · exact tidy.legal character mem
      · intro last found
        refine tidy.back last ?_
        obtain ⟨before, final, same⟩ := (List.eq_nil_or_concat (sized raw)).resolve_left nonempty
        have lasts : ('_' :: sized raw).getLast? = (sized raw).getLast? := by
          rw [same, List.concat_eq_append, ← List.cons_append, List.getLast?_concat,
            List.getLast?_concat]
        exact lasts ▸ found

/-- A name that is one normal component everywhere, and the same one on disk. -/
structure SafeName (name : List Char) : Prop where
  nonempty : name ≠ []
  noDot : name ≠ ['.']
  noDotDot : name ≠ ['.', '.']
  noSlash : '/' ∉ name
  noBackslash : '\\' ∉ name
  noControl : ∀ character ∈ name, isControl character = false
  noIllegal : ∀ character ∈ name, character ∉ illegal
  front : name.head? ≠ some ' '
  backDot : name.getLast? ≠ some '.'
  backBlank : name.getLast? ≠ some ' '
  unreserved : ∀ reserved ∈ reservedStems,
    toAsciiLowercase (stem name) ≠ toAsciiLowercase reserved

theorem tidy_safe (tidy : Tidy name) (nonempty : name ≠ [])
    (unreserved : isReservedStem name = false) : SafeName name := by
  have legal : ∀ character ∈ name, isControl character = false ∧ character ∉ illegal := by
    simpa [forbidden] using tidy.legal
  have back : ∀ last ∈ [ '.', ' '], name.getLast? ≠ some last := by
    intro last mem found
    have trailing := tidy.back last found
    fin_cases mem <;> cases trailing
  have noDot : name.getLast? ≠ some '.' := back '.' (by decide)
  refine ⟨nonempty, ?_, ?_, ?_, ?_, fun character mem => (legal character mem).1,
    fun character mem => (legal character mem).2, tidy.front, noDot, back ' ' (by decide), ?_⟩
  · rintro rfl
    exact noDot rfl
  · rintro rfl
    exact noDot rfl
  · exact fun mem => (legal _ mem).2 (by decide)
  · exact fun mem => (legal _ mem).2 (by decide)
  · simpa only [isReservedStem, List.any_eq_false, eqIgnoreAsciiCase, decide_eq_true_eq] using unreserved

theorem sanitise_safe (raw : List Char) : SafeName (sanitise raw) := by
  obtain ⟨tidy, nonempty, unreserved⟩ := sanitise_tidy raw
  exact tidy_safe tidy nonempty unreserved

/-! The length of the result, and what is done to it the second time. -/

/-- The last path component of the text, without blanks at its ends. -/
def outline (raw : List Char) : List Char :=
  ((raw.rtakeWhile (!isSeparator ·)).dropWhile (· == ' ')).rdropWhile isTrailing

/-- Its length in bytes, where a forbidden character counts as the mark that replaces it. -/
def nameWidth (raw : List Char) : Nat :=
  ((outline raw).map fun character => if forbidden character then 1 else character.utf8Size).sum

theorem neutral_eq_iff (character : Char) (legal : forbidden other = false) (mark : other ≠ '_') :
    neutral character = other ↔ character = other := by
  unfold neutral
  split
  next hit =>
    refine ⟨fun same => absurd same.symm mark, ?_⟩
    rintro rfl
    rw [legal] at hit
    cases hit
  next => rfl

theorem neutral_trailing (character : Char) : isTrailing (neutral character) = isTrailing character := by
  rw [Bool.eq_iff_iff]
  simp only [isTrailing, Bool.or_eq_true, beq_iff_eq]
  rw [neutral_eq_iff _ (by decide) (by decide), neutral_eq_iff _ (by decide) (by decide)]

theorem trimmed_outline (raw : List Char) : trimmed raw = (outline raw).map neutral := by
  have blank : ((· == ' ') ∘ neutral : Char → Bool) = (· == ' ') := by
    funext character
    rw [Bool.eq_iff_iff]
    simpa using neutral_eq_iff character (show forbidden ' ' = false by decide) (by decide)
  have trailing : isTrailing ∘ neutral = isTrailing := funext neutral_trailing
  rw [trimmed, outline, List.dropWhile_map, blank, List.rdropWhile, List.rdropWhile, ← List.map_reverse,
    List.dropWhile_map, trailing, List.map_reverse]

theorem trimmed_width (raw : List Char) : utf8Length (trimmed raw) = nameWidth raw := by
  rw [trimmed_outline, utf8Length, nameWidth, List.map_map]
  congr 1
  refine List.map_congr_left fun character _ => ?_
  rw [Function.comp_apply, neutral]
  split <;> rfl

theorem reserved_letters : ∀ reserved ∈ reservedStems, ∀ letter ∈ toAsciiLowercase reserved,
    forbidden letter = false ∧ letter ≠ '_' := by
  have all : reservedStems.all (fun reserved => (toAsciiLowercase reserved).all fun letter =>
    !forbidden letter && letter != '_') = true := by decide
  simpa using all

theorem lower_neutral (character : Char) (legal : forbidden letter = false) (mark : letter ≠ '_') :
    lowerAscii (neutral character) = letter ↔ lowerAscii character = letter := by
  -- A forbidden character is no letter, so that its case does not matter.
  by_cases hit : forbidden character
  · have noLetter : ¬ ('A'.toNat ≤ character.toNat ∧ character.toNat ≤ 'Z'.toNat) := by
      rintro ⟨low, high⟩
      simp only [Char.reduceToNat] at low high
      simp only [forbidden, isControl, Bool.or_eq_true, Bool.and_eq_true, decide_eq_true_eq] at hit
      rcases hit with control | listed
      · omega
      · have mem : character ∈ illegal := by simpa using listed
        fin_cases mem <;> simp at low high
    rw [neutral, if_pos hit, lowerAscii, lowerAscii, if_neg noLetter, if_neg (by decide)]
    refine ⟨fun same => absurd same.symm mark, ?_⟩
    rintro rfl
    rw [legal] at hit
    cases hit
  · rw [neutral, if_neg hit]

theorem reserved_neutral (name : List Char) :
    isReservedStem (name.map neutral) = isReservedStem name := by
  have cut : stem (name.map neutral) = (stem name).map neutral := by
    rw [stem, List.takeWhile_map]
    congr 2
    funext character
    rw [Bool.eq_iff_iff]
    simpa using not_congr (neutral_eq_iff character (show forbidden '.' = false by decide) (by decide))
  have texts : ∀ text reserved : List Char, (∀ letter ∈ reserved, forbidden letter = false ∧ letter ≠ '_') →
      ((text.map neutral).map lowerAscii = reserved ↔ text.map lowerAscii = reserved) := by
    intro text
    induction text with
    | nil => exact fun _ _ => Iff.rfl
    | cons character rest ih =>
      rintro (_ | ⟨letter, others⟩) plain
      · simp
      · obtain ⟨first, later⟩ := List.forall_mem_cons.mp plain
        simp only [List.map_cons, List.cons.injEq, lower_neutral character first.1 first.2,
          ih others later]
  rw [isReservedStem, isReservedStem, cut, Bool.eq_iff_iff, List.any_eq_true, List.any_eq_true]
  refine exists_congr fun reserved => and_congr_right fun mem => ?_
  simp only [eqIgnoreAsciiCase, decide_eq_true_eq]
  exact texts (stem name) _ (reserved_letters reserved mem)

def markBytes (name : List Char) : Nat := if isReservedStem name then 1 else 0

theorem sanitise_empty (empty : sized raw = []) : sanitise raw = defaultName := by
  rw [sanitise, clean, if_pos empty, Option.getD_none]

theorem sanitise_length (nonempty : sized raw ≠ []) :
    utf8Length (sanitise raw) = utf8Length (sized raw) + markBytes (sized raw) := by
  rw [sanitise, clean, if_neg nonempty, Option.getD_some, markBytes]
  split
  · rw [utf8_cons]
    exact Nat.add_comm _ _
  · rfl

theorem sized_long (long : nameWidth raw > maxNameBytes) :
    utf8Length (sanitise raw) ≤ maxTruncatedBytes + 1 := by
  by_cases empty : sized raw = []
  · rw [sanitise_empty empty]
    exact Nat.le_of_ble_eq_true rfl
  · have cut : sized raw = truncateKeepingExtension (trimmed raw) := if_pos (trimmed_width raw ▸ long)
    have fits := (truncated_tidy (trimmed_tidy raw)).2
    have marked : markBytes (sized raw) ≤ 1 := by
      unfold markBytes
      split <;> omega
    rw [sanitise_length empty, cut]
    rw [cut] at marked
    omega

theorem sized_short (short : ¬ nameWidth raw > maxNameBytes) :
    sized raw = trimmed raw ∧ utf8Length (sized raw) = nameWidth raw ∧
      markBytes (sized raw) = markBytes (outline raw) := by
  have kept : sized raw = trimmed raw := if_neg (trimmed_width raw ▸ short)
  refine ⟨kept, kept ▸ trimmed_width raw, ?_⟩
  rw [kept, trimmed_outline, markBytes, markBytes, reserved_neutral]

/-- The name and its working file fit, unless the text is just too short to be cut. -/
theorem sanitise_fits_iff (raw : List Char) :
    utf8Length (sanitise raw) + partSuffixBytes ≤ maxNameBytes ↔
      nameWidth raw > maxNameBytes ∨
        nameWidth raw + markBytes (outline raw) + partSuffixBytes ≤ maxNameBytes := by
  by_cases long : nameWidth raw > maxNameBytes
  · have fits := sized_long long
    simp only [long, true_or, iff_true]
    exact Nat.add_le_add_right fits partSuffixBytes
  · obtain ⟨_, width, marked⟩ := sized_short long
    simp only [long, false_or]
    rw [← width, ← marked]
    by_cases empty : sized raw = []
    · rw [sanitise_empty empty, empty]
      decide
    · rw [sanitise_length empty]

theorem sanitise_long_name :
    ¬ utf8Length (sanitise (List.replicate 250 'a')) + partSuffixBytes ≤ maxNameBytes := by
  decide +kernel

theorem sanitise_twice_iff (raw : List Char) :
    sanitise (sanitise raw) = sanitise raw ↔
      ¬ (nameWidth raw = maxNameBytes ∧ isReservedStem (outline raw) = true) := by
  obtain ⟨tidy, nonempty, unreserved⟩ := sanitise_tidy raw
  have again : sanitise (sanitise raw) = sanitise raw ↔ utf8Length (sanitise raw) ≤ maxNameBytes := by
    constructor
    · intro same
      by_contra long
      rw [← trimmed_self tidy, trimmed_width] at long
      have cut := sized_long (Nat.not_le.mp long)
      rw [same, ← trimmed_self tidy, trimmed_width] at cut
      exact long (Nat.le_trans cut (by decide))
    · intro short
      have kept : sized (sanitise raw) = sanitise raw := by
        rw [sized, trimmed_self tidy]
        exact if_neg (Nat.not_lt.mpr short)
      rw [sanitise, clean, kept, if_neg nonempty, unreserved]
      rfl
  rw [again]
  by_cases long : nameWidth raw > maxNameBytes
  · have fits := sized_long long
    refine iff_of_true (Nat.le_trans fits (by decide)) fun edge => ?_
    exact Nat.ne_of_gt long edge.1
  · obtain ⟨_, width, marked⟩ := sized_short long
    by_cases empty : sized raw = []
    · rw [empty] at width
      refine iff_of_true (by rw [sanitise_empty empty]; decide) fun edge => ?_
      rw [← width] at edge
      exact absurd edge.1 (by decide)
    · rw [sanitise_length empty, width, marked, markBytes]
      cases isReservedStem (outline raw) <;> simp <;> omega

theorem sanitise_twice_device :
    let name := ['C', 'O', 'N', '.'] ++ List.replicate 251 'a'
    sanitise (sanitise name) ≠ sanitise name := by
  decide +kernel

end Downpour.Filename
