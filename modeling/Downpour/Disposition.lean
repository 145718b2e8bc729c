import Downpour.Filename

/-!
`Content-Disposition` and the name it suggests. A header is cut into parameters at
the semicolons outside quoted strings; `filename*` is decoded, `filename` is
unquoted, and the name that is used is the first one that survives cleaning.
Special characters are ASCII, so that cutting characters is cutting bytes. The
path segments of the URL are an argument, and so is `percent_decode_str`.
-/

namespace Downpour.Disposition
open Text Filename

/-- The loop of `split_parameters`: inside quotes, behind a backslash, the part so far. -/
def splitFrom (inQuotes escaped : Bool) (part : List Char) : List Char → List (List Char)
  | [] => [part]
  | character :: rest =>
    if escaped then splitFrom inQuotes false (part ++ [character]) rest
    else if character = '\\' ∧ inQuotes then splitFrom inQuotes true (part ++ [character]) rest
    else if character = '"' then splitFrom (!inQuotes) false (part ++ [character]) rest
    else if character = ';' ∧ inQuotes = false then part :: splitFrom inQuotes false [] rest
    else splitFrom inQuotes false (part ++ [character]) rest

def splitParameters (header : List Char) : List (List Char) := splitFrom false false [] header

def unescape : List Char → List Char
  | [] => []
  | character :: rest =>
    if character = '\\' then
      match rest with
      | [] => []
      | escaped :: later => escaped :: unescape later
    else character :: unescape rest

def unquote (value : List Char) : List Char :=
  match value with
  | '"' :: rest => if rest.getLast? = some '"' then unescape rest.dropLast else value
  | _ => value

def fromUtf8 (bytes : List UInt8) : Option (List Char) :=
  (ByteArray.mk bytes.toArray).utf8Decode?.map Array.toList

def apostrophe : Char := Char.ofNat 39

section Resolve
variable (percentDecodeStr : List Char → List UInt8)

/-- The charset, the language and the encoded text, between apostrophes. -/
def decodeExtendedValue (value : List Char) : Option (List Char) := do
  let (charset, rest) ← splitOnce apostrophe value
  let (_, encoded) ← splitOnce apostrophe rest
  let bytes := percentDecodeStr encoded
  if eqIgnoreAsciiCase charset "utf-8".toList then fromUtf8 bytes
  else if eqIgnoreAsciiCase charset "iso-8859-1".toList then
    some (bytes.map fun byte => Char.ofNat byte.toNat)
  else none

def filename : List Char := ['f', 'i', 'l', 'e', 'n', 'a', 'm', 'e']
def filenameStar : List Char := filename ++ ['*']

def parameter (part : List Char) : Option (List Char × List Char) :=
  (splitOnce '=' part).map fun halves => (trim halves.1, unquote (trim halves.2))

/-- One turn of the loop of `from_content_disposition`, over `extended` and `plain`. -/
def readParameter (found : Option (List Char) × Option (List Char)) (part : List Char) :
    Option (List Char) × Option (List Char) :=
  match parameter part with
  | none => found
  | some (name, value) =>
    if eqIgnoreAsciiCase name filenameStar then
      if found.1 = none then (decodeExtendedValue percentDecodeStr value, found.2) else found
    else if eqIgnoreAsciiCase name filename ∧ found.2 = none then (found.1, some value)
    else found

def fromContentDisposition (header : List Char) : Option (List Char) :=
  let found := (splitParameters header).foldl (readParameter percentDecodeStr) (none, none)
  found.1.or found.2

def fromUrlPath (pathSegments : Option (List (List Char))) : Option (List Char) := do
  let last ← (← pathSegments).getLast?
  if last = [] then none else fromUtf8 (percentDecodeStr last)

def resolve (contentDisposition : Option (List Char)) (pathSegments : Option (List (List Char))) :
    List Char :=
  ((contentDisposition.bind (fromContentDisposition percentDecodeStr)).bind clean).getD
    (((fromUrlPath percentDecodeStr pathSegments).bind clean).getD defaultName)

/-! The documented order of the sources. -/

def extendedName (parts : List (List Char)) : Option (List Char) :=
  (parts.filterMap parameter).findSome? fun read =>
    if eqIgnoreAsciiCase read.1 filenameStar then decodeExtendedValue percentDecodeStr read.2
    else none

def plainName (parts : List (List Char)) : Option (List Char) :=
  (parts.filterMap parameter).findSome? fun read =>
    if eqIgnoreAsciiCase read.1 filename then some read.2 else none

def partsOf (contentDisposition : Option (List Char)) : List (List Char) :=
  (contentDisposition.map splitParameters).getD []

def documented (contentDisposition : Option (List Char)) (pathSegments : Option (List (List Char))) :
    List Char :=
  (((extendedName percentDecodeStr (partsOf contentDisposition)).bind clean).or
    (((plainName (partsOf contentDisposition)).bind clean).or
      ((fromUrlPath percentDecodeStr pathSegments).bind clean))).getD defaultName

theorem filename_plain (plain : eqIgnoreAsciiCase name filename = true) :
    eqIgnoreAsciiCase name filenameStar = false := by
  simp only [eqIgnoreAsciiCase, decide_eq_true_eq, decide_eq_false_iff_not] at plain ⊢
  rw [plain]
  decide

theorem read_all (parts : List (List Char)) (found : Option (List Char) × Option (List Char)) :
    parts.foldl (readParameter percentDecodeStr) found =
      (found.1.or (extendedName percentDecodeStr parts), found.2.or (plainName parts)) := by
  induction parts generalizing found with
  | nil => simp [extendedName, plainName]
  | cons part rest ih =>
    rw [List.foldl_cons, ih, readParameter, extendedName, plainName, extendedName, plainName]
    obtain ⟨extended, plain⟩ := found
    cases read : parameter part with
    | none => simp [read]
    | some halves =>
      obtain ⟨name, value⟩ := halves
      by_cases star : eqIgnoreAsciiCase name filenameStar = true
      · have other : eqIgnoreAsciiCase name filename = false := by
          by_contra plain
          rw [filename_plain (Bool.not_eq_false _ ▸ plain)] at star
          cases star
        cases extended <;> cases decoded : decodeExtendedValue percentDecodeStr value <;>
          simp [read, star, other, decoded]
      · by_cases hit : eqIgnoreAsciiCase name filename = true
        · cases plain <;> simp [read, star, hit]
        · simp [read, star, hit]

theorem from_disposition_eq (header : List Char) :
    fromContentDisposition percentDecodeStr header =
      (extendedName percentDecodeStr (splitParameters header)).or
        (plainName (splitParameters header)) := by
  rw [fromContentDisposition, read_all]
  rfl

/-- A name in `filename*` that cleaning takes away hides a `filename` that would survive. -/
theorem resolve_documented_iff (contentDisposition : Option (List Char))
    (pathSegments : Option (List (List Char))) :
    resolve percentDecodeStr contentDisposition pathSegments =
        documented percentDecodeStr contentDisposition pathSegments ↔
      ∀ extended ∈ extendedName percentDecodeStr (partsOf contentDisposition), clean extended = none →
        ∀ plain ∈ plainName (partsOf contentDisposition), ∀ name ∈ clean plain,
          name = ((fromUrlPath percentDecodeStr pathSegments).bind clean).getD defaultName := by
  have sources : contentDisposition.bind (fromContentDisposition percentDecodeStr) =
      (extendedName percentDecodeStr (partsOf contentDisposition)).or
        (plainName (partsOf contentDisposition)) := by
    cases contentDisposition with
    | none => rfl
    | some header => exact from_disposition_eq percentDecodeStr header
  rw [resolve, sources, documented]
  generalize (fromUrlPath percentDecodeStr pathSegments).bind clean = segment
  generalize plainName (partsOf contentDisposition) = plain
  cases extendedName percentDecodeStr (partsOf contentDisposition) with
  | none => cases kept : plain.bind clean <;> simp [kept]
  | some extended =>
    cases survives : clean extended with
    | some name => simp [survives]
    | none =>
      cases plain with
      | none => simp [survives]
      | some plain => cases kept : clean plain <;> simp [survives, kept, eq_comm]

/-- What `percent_decode_str` makes of a text without a percent sign. -/
def utf8Bytes (text : List Char) : List UInt8 := text.flatMap String.utf8EncodeChar

theorem resolve_hidden_filename :
    let header := "attachment; filename*=UTF-8''..; filename=a.txt".toList
    resolve utf8Bytes (some header) (some [['b']]) = ['b'] ∧
      documented utf8Bytes (some header) (some [['b']]) = ['a', '.', 't', 'x', 't'] := by
  decide +kernel

/-- The text between the quotes, where a character may have a backslash in front of it. -/
def quotedText (items : List (Bool × Char)) : List Char :=
  items.flatMap fun item => if item.1 then ['\\', item.2] else [item.2]

def WellQuoted (items : List (Bool × Char)) : Prop :=
  ∀ item ∈ items, item.1 = false → item.2 ≠ '"' ∧ item.2 ≠ '\\'

/-- A backslash in front of every quote and backslash, and of nothing else. -/
def escape (text : List Char) : List (Bool × Char) :=
  text.map fun character => (character == '"' || character == '\\', character)

inductive Piece where
  | bare (text : List Char)
  | quoted (blank name : List Char) (items : List (Bool × Char))

def Piece.text : Piece → List Char
  | .bare text => text
  | .quoted blank name items => blank ++ name ++ '=' :: '"' :: (quotedText items ++ ['"'])

/-- A word such as `attachment`, or white space, a name and a quoted string. -/
def Piece.WellFormed : Piece → Prop
  | .bare text => ∀ character ∈ text, character ≠ '=' ∧ character ≠ '"' ∧ character ≠ ';'
  | .quoted blank name items => (∀ character ∈ blank, isWhitespace character = true) ∧ name ≠ [] ∧
    (∀ character ∈ name, isWhitespace character = false ∧ character ≠ '=' ∧ character ≠ '"' ∧
      character ≠ ';') ∧ WellQuoted items

def Piece.isName (name : List Char) : Piece → Bool
  | .bare _ => false
  | .quoted _ own _ => eqIgnoreAsciiCase own name

theorem quoted_cons (escaped : Bool) (character : Char) (rest : List (Bool × Char)) :
    quotedText ((escaped, character) :: rest) =
      (if escaped then ['\\', character] else [character]) ++ quotedText rest := rfl

theorem unescape_quoted (well : WellQuoted items) :
    unescape (quotedText items) = items.map Prod.snd := by
  induction items with
  | nil => rfl
  | cons item rest ih =>
    obtain ⟨first, later⟩ := List.forall_mem_cons.mp well
    obtain ⟨escaped, character⟩ := item
    cases escaped with
    | true => simp [quoted_cons, unescape, ih later]
    | false =>
      rw [quoted_cons, if_neg Bool.false_ne_true, List.singleton_append, unescape.eq_def]
      simp only [if_neg (first rfl).2, ih later, List.map_cons]

theorem split_plain (plain : ∀ character ∈ text, character ≠ '"' ∧ character ≠ ';')
    (part rest : List Char) :
    splitFrom false false part (text ++ rest) = splitFrom false false (part ++ text) rest := by
  induction text generalizing part with
  | nil => simp
  | cons character others ih =>
    obtain ⟨first, later⟩ := List.forall_mem_cons.mp plain
    rw [List.cons_append, splitFrom]
    simp [first, ih later]

theorem split_quoted {items : List (Bool × Char)} (well : WellQuoted items) (part rest : List Char) :
    splitFrom true false part (quotedText items ++ rest) =
      splitFrom true false (part ++ quotedText items) rest := by
  induction items generalizing part with
  | nil => simp [quotedText]
  | cons item others ih =>
    obtain ⟨first, later⟩ := List.forall_mem_cons.mp well
    obtain ⟨escaped, character⟩ := item
    cases escaped with
    | true => simp [quoted_cons, splitFrom, ih later]
    | false => simp [quoted_cons, splitFrom, first rfl, ih later]

theorem split_piece {piece : Piece} (well : piece.WellFormed) (rest : List Char) :
    splitFrom false false [] (piece.text ++ rest) = splitFrom false false piece.text rest := by
  cases piece with
  | bare text => exact split_plain (fun character mem => (well character mem).2) [] rest
  | quoted blank name items =>
    obtain ⟨blanks, _, letters, quoted⟩ := well
    have front : ∀ character ∈ blank ++ name ++ ['='], character ≠ '"' ∧ character ≠ ';' := by
      intro character mem
      rcases List.mem_append.mp mem with mem | mem
      · rcases List.mem_append.mp mem with mem | mem
        · have white := blanks character mem
          constructor <;> rintro rfl <;> cases white
        · exact (letters character mem).2.2
      · rw [List.mem_singleton.mp mem]
        decide
    have whole : Piece.text (.quoted blank name items) =
        (blank ++ name ++ ['=']) ++ '"' :: (quotedText items ++ ['"']) := by simp [Piece.text]
    rw [whole, List.append_assoc, split_plain front]
    simp [splitFrom, split_quoted quoted]

theorem split_header (nonempty : pieces ≠ []) (well : ∀ piece ∈ pieces, piece.WellFormed) :
    splitParameters ([';'].intercalate (pieces.map Piece.text)) = pieces.map Piece.text := by
  induction pieces with
  | nil => exact absurd rfl nonempty
  | cons piece rest ih =>
    obtain ⟨first, later⟩ := List.forall_mem_cons.mp well
    cases rest with
    | nil => simpa [splitParameters, splitFrom] using split_piece first []
    | cons second others =>
      have tail := ih (List.cons_ne_nil _ _) later
      rw [List.map_cons, List.map_cons, List.intercalate_cons_cons, List.append_assoc, splitParameters,
        split_piece first]
      rw [splitParameters, List.map_cons] at tail
      simp [splitFrom, tail]

theorem trim_word (blanks : ∀ character ∈ blank, isWhitespace character = true)
    (letters : ∀ character ∈ name, isWhitespace character = false) : trim (blank ++ name) = name := by
  have solid : ∀ text : List Char, (∀ character ∈ text, isWhitespace character = false) →
      text.dropWhile isWhitespace = text := by
    intro text plain
    cases text with
    | nil => rfl
    | cons first rest => exact List.dropWhile_cons_of_neg (by simp [plain first])
  rw [trim, List.dropWhile_append_of_pos blanks, solid name letters,
    solid _ fun character mem => letters character (List.mem_reverse.mp mem), List.reverse_reverse]

theorem parameter_quoted (well : (Piece.quoted blank name items).WellFormed) :
    parameter (Piece.text (.quoted blank name items)) = some (name, items.map Prod.snd) := by
  obtain ⟨blanks, _, letters, quoted⟩ := well
  have cut : splitOnce '=' (Piece.text (.quoted blank name items)) =
      some (blank ++ name, '"' :: (quotedText items ++ ['"'])) := by
    refine (split_once_iff _ _ _ _).mpr ⟨rfl, fun mem => ?_⟩
    rcases List.mem_append.mp mem with mem | mem
    · cases blanks _ mem
    · exact (letters _ mem).2.1 rfl
  rw [parameter, cut, Option.map_some, trim_word blanks fun character mem => (letters character mem).1,
    trim_solid rfl rfl, unquote, if_pos (by simp), List.dropLast_concat, unescape_quoted quoted]

theorem parameter_bare (well : (Piece.bare text).WellFormed) :
    parameter text = none := by
  rw [parameter, Option.map_eq_none_iff]
  by_contra found
  obtain ⟨halves, cut⟩ := Option.ne_none_iff_exists'.mp found
  obtain ⟨same, _⟩ := (split_once_iff _ _ halves.1 halves.2).mp cut
  exact (well '=' (by rw [same]; simp)).1 rfl

theorem others_skipped {pieces : List Piece} (well : ∀ piece ∈ pieces, piece.WellFormed)
    {wanted : List Char} (other : ∀ piece ∈ pieces, piece.isName wanted = false)
    (pick : List Char → Option (List Char)) :
    ((pieces.map Piece.text).filterMap parameter).findSome? (fun read =>
      if eqIgnoreAsciiCase read.1 wanted then pick read.2 else none) = none := by
  rw [List.findSome?_eq_none_iff]
  intro read mem
  obtain ⟨text, listed, found⟩ := List.mem_filterMap.mp mem
  obtain ⟨piece, inside, rfl⟩ := List.mem_map.mp listed
  have different := other piece inside
  cases piece with
  | bare text =>
    rw [Piece.text, parameter_bare (well _ inside)] at found
    cases found
  | quoted blank name items =>
    rw [parameter_quoted (well _ inside)] at found
    cases found
    exact if_neg (by simpa [Piece.isName] using different)

/-- A quoted file name is read back, whatever it and the other values hold. -/
theorem quoted_filename_read {before after : List Piece} {blank name : List Char} (text : List Char)
    (well : ∀ piece ∈ before ++ .quoted blank name (escape text) :: after, piece.WellFormed)
    (named : eqIgnoreAsciiCase name filename = true)
    (others : ∀ piece ∈ before ++ after,
      piece.isName filename = false ∧ piece.isName filenameStar = false) :
    fromContentDisposition percentDecodeStr ([';'].intercalate
      ((before ++ .quoted blank name (escape text) :: after).map Piece.text)) = some text := by
  have value : (escape text).map Prod.snd = text := by
    simp [escape, Function.comp_def]
  have own := parameter_quoted (well (.quoted blank name (escape text)) (by simp))
  rw [value] at own
  rw [from_disposition_eq, split_header (by simp) well]
  have noStar : extendedName percentDecodeStr
      ((before ++ .quoted blank name (escape text) :: after).map Piece.text) = none := by
    refine others_skipped well (fun piece mem => ?_) _
    rcases List.mem_append.mp mem with mem | mem
    · exact (others piece (List.mem_append_left _ mem)).2
    · rcases List.mem_cons.mp mem with rfl | mem
      · exact filename_plain named
      · exact (others piece (List.mem_append_right _ mem)).2
  have skipped : plainName (before.map Piece.text) = none :=
    others_skipped (fun piece mem => well piece (List.mem_append_left _ mem))
      (fun piece mem => (others piece (List.mem_append_left _ mem)).1) some
  rw [plainName] at skipped
  rw [noStar, Option.none_or, plainName, List.map_append, List.filterMap_append, List.findSome?_append,
    skipped, Option.none_or, List.map_cons, List.filterMap_cons_some own, List.findSome?_cons, if_pos named]

theorem quoted_filename_read_semicolon :
    fromContentDisposition utf8Bytes ([';'].intercalate (List.map Piece.text
      ([.bare ['i', 'n', 'l', 'i', 'n', 'e']] ++ .quoted [' '] filename (escape [';', '"', '\\']) ::
        [.quoted [' '] ['a'] [(true, '"'), (false, ';')]]))) = some [';', '"', '\\'] := by
  refine quoted_filename_read _ _ ?_ (by decide) ?_
  · simp [Piece.WellFormed, WellQuoted, escape, filename, isWhitespace]
  · simp [Piece.isName]
    decide

end Resolve

end Downpour.Disposition
