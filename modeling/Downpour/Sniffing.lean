import Downpour.H1H2

/-!
Whether a fetched body looks like a web page. The source looks at the first chunk that
is not empty, whatever it holds: the beginning of the representation or of a later part,
whole or cut inside the marker. The HTTP library decides where chunks end.
-/

namespace Downpour.Sniffing
open Text Ranges Remote Http H1H2

/-! The beginning of a document. -/

/-- The document carries a marker behind an optional byte order mark and white space. -/
def beginsLikeAPage (bytes : List UInt8) : Bool := bodyLooksLikeAWebPage none bytes

theorem body_looks_iff (contentType : Option (List Char)) (head : List UInt8) :
    bodyLooksLikeAWebPage contentType head = true ↔
      declaredGeneric contentType = true ∧ beginsLikeAPage head = true := by
  unfold beginsLikeAPage bodyLooksLikeAWebPage
  cases declaredGeneric contentType <;> simp [declaredGeneric]

def opening (bytes : List UInt8) : List UInt8 :=
  ((stripBom bytes).dropWhile isAsciiWhitespaceByte).map lowerByte

def skipped (bytes : List UInt8) : Nat :=
  (bytes.length - (stripBom bytes).length) + ((stripBom bytes).takeWhile isAsciiWhitespaceByte).length

def doctype : List UInt8 := asciiBytes "<!doctype"

def shortMarkers : List (List UInt8) := doctype :: ["<html", "<head", "<body"].map asciiBytes

theorem begins_iff (bytes : List UInt8) :
    beginsLikeAPage bytes = true ↔ ∃ marker ∈ shortMarkers, marker <+: opening bytes := by
  have short : ∀ marker ∈ markers, marker.length ≤ 64 := by decide
  have included : ∀ marker ∈ shortMarkers, marker ∈ markers := by decide
  have covered : ∀ marker ∈ markers, ∃ other ∈ shortMarkers, other <+: marker := by decide
  have reads : beginsLikeAPage bytes = markers.any fun marker =>
      marker.isPrefixOf ((opening bytes).take 64) := by
    simp [beginsLikeAPage, bodyLooksLikeAWebPage, declaredGeneric, opening, List.map_take]
  rw [reads, List.any_eq_true]
  constructor
  · rintro ⟨marker, mem, found⟩
    obtain ⟨other, here, front⟩ := covered marker mem
    have longer := (List.prefix_take_iff.mp (List.isPrefixOf_iff_prefix.mp found)).1
    exact ⟨other, here, front.trans longer⟩
  · rintro ⟨marker, mem, found⟩
    refine ⟨marker, included marker mem, List.isPrefixOf_iff_prefix.mpr ?_⟩
    exact List.prefix_take_iff.mpr ⟨found, short marker (included marker mem)⟩

/-! A document that is cut. -/

theorem drop_while_take {Item : Type} (test : Item → Bool) (items : List Item) (count : Nat) :
    (items.take count).dropWhile test =
      (items.dropWhile test).take (count - (items.takeWhile test).length) := by
  induction items generalizing count with
  | nil => simp
  | cons item rest ih =>
    cases count with
    | zero => simp
    | succ count =>
      by_cases passes : test item = true
      · simp only [List.take_succ_cons, List.dropWhile_cons_of_pos passes,
          List.takeWhile_cons_of_pos passes, List.length_cons, Nat.add_sub_add_right]
        exact ih count
      · simp [List.dropWhile_cons_of_neg passes, List.takeWhile_cons_of_neg passes]

theorem strip_bom_take (bytes : List UInt8) (enough : 3 ≤ count) :
    stripBom (bytes.take count) =
      (stripBom bytes).take (count - (bytes.length - (stripBom bytes).length)) := by
  unfold stripBom
  by_cases marked : [0xEF, 0xBB, 0xBF] <+: bytes
  · have still : [0xEF, 0xBB, 0xBF] <+: bytes.take count :=
      List.prefix_take_iff.mpr ⟨marked, enough⟩
    have long := marked.length_le
    rw [if_pos (List.isPrefixOf_iff_prefix.mpr still), if_pos (List.isPrefixOf_iff_prefix.mpr marked),
      List.drop_take, List.length_drop]
    congr 1
    simp only [List.length_cons, List.length_nil] at long
    omega
  · have neither : ¬ [0xEF, 0xBB, 0xBF] <+: bytes.take count :=
      fun found => marked (List.prefix_take_iff.mp found).1
    rw [if_neg (mt List.isPrefixOf_iff_prefix.mp neither),
      if_neg (mt List.isPrefixOf_iff_prefix.mp marked), Nat.sub_self, Nat.sub_zero]

theorem opening_take (bytes : List UInt8) (enough : 3 ≤ count) :
    opening (bytes.take count) = (opening bytes).take (count - skipped bytes) := by
  rw [opening, strip_bom_take bytes enough, drop_while_take, List.map_take, opening, skipped,
    Nat.sub_sub]

theorem opening_length (bytes : List UInt8) : (opening bytes).length ≤ bytes.length := by
  have shorter : (stripBom bytes).length ≤ bytes.length := by
    unfold stripBom
    split
    · simp
    · exact Nat.le_refl _
  rw [opening, List.length_map]
  exact (List.length_dropWhile_le _ _).trans shorter

/-- How many bytes a reader needs to see the marker of a document that has one. -/
def sniffLength (bytes : List UInt8) : Nat :=
  skipped bytes + if doctype.isPrefixOf (opening bytes) then doctype.length else 5

theorem begins_take_iff (bytes : List UInt8) (count : Nat) :
    beginsLikeAPage (bytes.take count) = true ↔
      beginsLikeAPage bytes = true ∧ sniffLength bytes ≤ count := by
  -- A leading part shows the marker exactly if it reaches to its end.
  have least : ∀ marker ∈ shortMarkers, 5 ≤ marker.length := by decide
  have other : ∀ marker ∈ shortMarkers, marker ≠ doctype →
      marker.length = 5 ∧ ¬ marker <+: doctype := by decide
  rw [begins_iff, begins_iff]
  constructor
  · rintro ⟨marker, mem, found⟩
    have long : 5 ≤ count := by
      have inside := found.length_le.trans (opening_length _)
      have := least marker mem
      rw [List.length_take] at inside
      omega
    rw [opening_take bytes (by omega)] at found
    obtain ⟨whole, fits⟩ := List.prefix_take_iff.mp found
    refine ⟨⟨marker, mem, whole⟩, ?_⟩
    have size := least marker mem
    unfold sniffLength
    by_cases same : marker = doctype
    · rw [if_pos (List.isPrefixOf_iff_prefix.mpr (same ▸ whole)), ← same]
      omega
    · -- Two markers that begin the same document are the same.
      have single : ¬ doctype <+: opening bytes := by
        intro both
        obtain ⟨exactly, apart⟩ := other marker mem same
        have shorter : marker.length ≤ doctype.length := by
          rw [exactly]
          decide
        exact apart (List.prefix_of_prefix_length_le whole both shorter)
      rw [if_neg (mt List.isPrefixOf_iff_prefix.mp single)]
      omega
  · rintro ⟨⟨marker, mem, whole⟩, reaches⟩
    refine ⟨marker, mem, ?_⟩
    unfold sniffLength at reaches
    by_cases declared : doctype <+: opening bytes
    · rw [if_pos (List.isPrefixOf_iff_prefix.mpr declared)] at reaches
      have same : marker = doctype := by
        by_contra differs
        obtain ⟨exactly, apart⟩ := other marker mem differs
        have shorter : marker.length ≤ doctype.length := by
          rw [exactly]
          decide
        exact apart (List.prefix_of_prefix_length_le whole declared shorter)
      have size : doctype.length = 9 := by decide
      rw [opening_take bytes (by omega), same]
      exact List.prefix_take_iff.mpr ⟨declared, by omega⟩
    · rw [if_neg (mt List.isPrefixOf_iff_prefix.mp declared)] at reaches
      have exactly := (other marker mem fun same => declared (same ▸ whole)).1
      rw [opening_take bytes (by omega)]
      exact List.prefix_take_iff.mpr ⟨whole, by omega⟩

theorem begins_front_iff (leading : front <+: bytes) :
    beginsLikeAPage front = true ↔
      beginsLikeAPage bytes = true ∧ sniffLength bytes ≤ front.length := by
  have cut := begins_take_iff bytes front.length
  rwa [← List.prefix_iff_eq_take.mp leading] at cut

/-! The fetch. -/

def firstChunk (chunks : List (List UInt8)) : List UInt8 :=
  (chunks.find? fun chunk => decide (chunk ≠ [])).getD []

theorem first_chunk_leads (chunks : List (List UInt8)) : firstChunk chunks <+: chunks.flatten := by
  induction chunks with
  | nil => exact List.prefix_rfl
  | cons chunk rest ih =>
    rw [List.flatten_cons]
    by_cases empty : chunk = []
    · rw [empty]
      simpa [firstChunk] using ih
    · have first : firstChunk (chunk :: rest) = chunk := by simp [firstChunk, empty]
      rw [first]
      exact List.prefix_append _ _

def refusedAsPage {Url Value : Type} : Except (TransferError Url) Value → Bool
  | .error (.looksLikeAnErrorPage _ _) => true
  | _ => false

section Fetch
variable {Url Target Io : Type}
variable (writeAt : Io → Target → Nat → List UInt8 → Except SinkError Unit × Target)

theorem later_unrefused (url : Url) (declaredType : Option (List Char)) (promised : Option Nat)
    (ending : BodyEnd) (io : Nat → Io) (chunks : List (List UInt8)) (index delivered : Nat)
    (sink : RangeSink Target) (begun : 0 < delivered) :
    refusedAsPage (readBody writeAt url declaredType promised ending io index delivered sink
      chunks).1 = false := by
  induction chunks generalizing index delivered sink with
  | nil =>
    unfold readBody
    split
    · rfl
    · rfl
    · split <;> rfl
  | cons chunk rest ih =>
    rw [readBody]
    by_cases empty : chunk = []
    · rw [if_pos empty]
      exact ih index delivered sink begun
    · rw [if_neg empty, if_neg (fun page => absurd page.1 (Nat.ne_of_gt begun))]
      rcases sink.accept (writeAt (io index)) chunk with ⟨error | _, after⟩
      · cases error <;> rfl
      · exact ih _ _ after (by omega)

theorem body_refused_iff (url : Url) (declaredType : Option (List Char)) (promised : Option Nat)
    (ending : BodyEnd) (io : Nat → Io) (chunks : List (List UInt8)) (index : Nat)
    (sink : RangeSink Target) :
    refusedAsPage (readBody writeAt url declaredType promised ending io index 0 sink chunks).1 =
        true ↔ declaredGeneric declaredType = true ∧ beginsLikeAPage (firstChunk chunks) = true := by
  -- The verdict on a body is the verdict on its first chunk.
  induction chunks generalizing index sink with
  | nil =>
    have nothing : ¬ beginsLikeAPage (firstChunk []) = true := by decide
    have unrefused : refusedAsPage (readBody writeAt url declaredType promised ending io index 0 sink
        []).1 = false := by
      unfold readBody
      split
      · rfl
      · rfl
      · split <;> rfl
    simp [unrefused, nothing]
  | cons chunk rest ih =>
    rw [readBody]
    by_cases empty : chunk = []
    · rw [if_pos empty, ih index sink, empty]
      simp [firstChunk]
    · have first : firstChunk (chunk :: rest) = chunk := by simp [firstChunk, empty]
      rw [if_neg empty, first, ← body_looks_iff]
      by_cases page : bodyLooksLikeAWebPage declaredType chunk = true
      · rw [if_pos ⟨rfl, page⟩]
        simp [refusedAsPage, page]
      · rw [if_neg (fun both => page both.2)]
        have positive := List.length_pos_iff.mpr empty
        refine iff_of_false ?_ page
        rcases sink.accept (writeAt (io index)) chunk with ⟨error | _, after⟩
        · cases error <;> exact Bool.false_ne_true
        · simp only
          rw [later_unrefused writeAt url declaredType promised ending io rest _ _ after (by omega)]
          exact Bool.false_ne_true

theorem fetch_refused_iff (sink : RangeSink Target) (io : Nat → Io) {sent : List (Exchange Url)}
    (answered : server sent.length request = .ok response)
    (checked : checkResponse request response = .ok range) :
    refusedAsPage (fetchRange writeAt server request sink io sent).1 = true ↔
      declaredGeneric response.contentType = true ∧
        beginsLikeAPage (firstChunk response.chunks) = true := by
  rw [← body_refused_iff writeAt request.url response.contentType (promisedLength response range)
    response.ending io response.chunks 0 sink]
  unfold fetchRange
  simp only [answered, checked]
  generalize readBody writeAt request.url response.contentType (promisedLength response range)
    response.ending io 0 0 sink response.chunks = read
  rcases read with ⟨error | delivered, after⟩
  · cases error <;> rfl
  · rfl

/-- The whole of a document is judged by its beginning exactly if that beginning, where
it is one of a web page, comes in one chunk under a generic type. A part of a document
that is none is let through exactly if its own first chunk does not look like one. -/
theorem document_judged_iff (server : Server Url) (request : RangeRequest Url)
    (sink : RangeSink Target) (io : Nat → Io) (sent : List (Exchange Url)) (response : Response)
    (range : Option ContentRange) (bytes : List UInt8)
    (answered : server sent.length request = .ok response)
    (checked : checkResponse request response = .ok range) :
    (response.chunks.flatten = bytes →
      ((refusedAsPage (fetchRange writeAt server request sink io sent).1 = true ↔
          beginsLikeAPage bytes = true) ↔
        (beginsLikeAPage bytes = true → declaredGeneric response.contentType = true ∧
          sniffLength bytes ≤ (firstChunk response.chunks).length))) ∧
    ∀ offset, response.chunks.flatten <+: bytes.drop offset → beginsLikeAPage bytes = false →
      (refusedAsPage (fetchRange writeAt server request sink io sent).1 = false ↔
        ¬ (declaredGeneric response.contentType = true ∧
          beginsLikeAPage (firstChunk response.chunks) = true)) := by
  have verdict := fetch_refused_iff writeAt sink io answered checked
  constructor
  · rintro rfl
    have shown := begins_front_iff (first_chunk_leads response.chunks)
    rw [verdict, shown]
    tauto
  · intro offset _ _
    rw [← verdict, Bool.not_eq_true]

end Fetch

/-! A page in one piece and in two, and a document with a page inside. -/

def page (status : Nat) (contentRange : Option (List Char)) (chunks : List (List UInt8)) :
    Response where
  status := status
  location := none
  etag := none
  lastModified := none
  contentRange := contentRange
  contentEncoding := none
  contentLength := none
  contentType := some "application/octet-stream".toList
  contentDisposition := none
  reprDigest := none
  contentDigest := none
  retryAfter := none
  protocol := .http11
  chunks := chunks
  ending := .finished

def takeAll (_ : Unit) (target : List UInt8) (_ : Nat) (bytes : List UInt8) :
    Except SinkError Unit × List UInt8 := (.ok (), target ++ bytes)

def fetchOnce (request : RangeRequest Unit) (response : Response) :
    Except (TransferError Unit) RangeOutcome × RangeSink (List UInt8) × List (Exchange Unit) :=
  fetchRange takeAll (fun _ _ => .ok response) request (RangeSink.new [] 0 none) (fun _ => ()) []

/-- In one piece the page is refused, and behind two other bytes it is let through whole. -/
theorem document_judged_whole :
    refusedAsPage (fetchOnce (RangeRequest.whole ()) (page 200 none [[], asciiBytes "<html>"])).1 =
        true ∧
      refusedAsPage (fetchOnce (RangeRequest.whole ())
        (page 200 none [[1, 2], asciiBytes "<html>"])).1 = false := by
  have first := document_judged_iff takeAll (fun _ _ => .ok (page 200 none [[], asciiBytes "<html>"]))
    (RangeRequest.whole ()) (RangeSink.new [] 0 none) (fun _ => ()) []
    (page 200 none [[], asciiBytes "<html>"]) none (asciiBytes "<html>") rfl rfl
  have second := document_judged_iff takeAll
    (fun _ _ => .ok (page 200 none [[1, 2], asciiBytes "<html>"]))
    (RangeRequest.whole ()) (RangeSink.new [] 0 none) (fun _ => ()) []
    (page 200 none [[1, 2], asciiBytes "<html>"]) none ([1, 2] ++ asciiBytes "<html>") rfl rfl
  exact ⟨((first.1 rfl).mpr fun _ => by decide).mpr (by decide),
    (second.2 0 List.prefix_rfl (by decide)).mpr (by decide)⟩

/-- The same page is let through when it comes in two pieces, and a part of a document that
is no page is refused when it begins like one. -/
theorem document_misjudged :
    beginsLikeAPage (asciiBytes "<html>") = true ∧
      refusedAsPage (fetchOnce (RangeRequest.whole ())
        (page 200 none [asciiBytes "<html>"])).1 = true ∧
      refusedAsPage (fetchOnce (RangeRequest.whole ())
        (page 200 none [asciiBytes "<ht", asciiBytes "ml>"])).1 = false ∧
      beginsLikeAPage ([1, 2] ++ asciiBytes "<html>") = false ∧
      refusedAsPage (fetchOnce (RangeRequest.ranged () (.fromTo 2 7))
        (page 206 (some "bytes 2-7/8".toList) [asciiBytes "<html>"])).1 = true := by
  decide +kernel

end Downpour.Sniffing
