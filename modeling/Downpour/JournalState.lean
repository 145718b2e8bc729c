import Downpour.JournalFormat

/-!
The one reading of a replayed record sequence that recovery and compaction
share. Lengths are natural numbers; the only sum that can leave the 64-bit range
is the end of a block, and that test is kept. The sort is Mathlib's insertion
sort, stable like `sort_by_key`.
-/

namespace Downpour.JournalState
open JournalFormat

structure JournalStateError where
  detail : String
  deriving DecidableEq, Repr

structure CompletedBlock where
  offset : UInt64
  len : UInt32
  blake3 : Digest
  deriving DecidableEq

namespace CompletedBlock

def start (block : CompletedBlock) : Nat := block.offset.toNat
def stop (block : CompletedBlock) : Nat := block.offset.toNat + block.len.toNat

def checkedEnd (block : CompletedBlock) : Except JournalStateError Nat :=
  if block.stop < 2 ^ 64 then .ok block.stop else .error ⟨"completed block end overflows u64"⟩

def Covers (block : CompletedBlock) (pos : Nat) : Prop :=
  block.start ≤ pos ∧ pos < block.stop

def Apart (left right : CompletedBlock) : Prop :=
  left.stop ≤ right.start ∨ right.stop ≤ left.start

def Earlier (left right : CompletedBlock) : Prop := left.start ≤ right.start

instance : DecidableRel Earlier := fun left right =>
  inferInstanceAs (Decidable (left.start ≤ right.start))

instance : Std.Total Earlier := ⟨fun left right => Nat.le_total left.start right.start⟩

instance : IsTrans CompletedBlock Earlier := ⟨fun _ _ _ first second => Nat.le_trans first second⟩

end CompletedBlock

structure EffectiveState where
  effectiveLength : Nat
  truncate : Option Nat
  identities : List (List UInt8)
  blocks : List CompletedBlock
  sealed : Option Digest
  deriving DecidableEq

def initialState (header : FileHeader) : EffectiveState where
  effectiveLength := header.totalLength.toNat
  truncate := none
  identities := []
  blocks := []
  «sealed» := none

/-- One record of the fold; `last` says that no record follows it. -/
def applyRecord (last : Bool) (state : EffectiveState) :
    JournalRecord → Except JournalStateError EffectiveState
  | .blockComplete offset len blake3 =>
    if len = 0 then .error ⟨"completed block has zero length"⟩
    else match (CompletedBlock.mk offset len blake3).checkedEnd with
      | .error error => .error error
      | .ok stop =>
        if stop > state.effectiveLength then
          .error ⟨"completed block lies beyond the effective length"⟩
        else .ok { state with blocks := state.blocks ++ [⟨offset, len, blake3⟩] }
  | .checkpoint _ _ => .ok state
  | .identityUpdate cbor => .ok { state with identities := state.identities ++ [cbor] }
  | .truncate newLength =>
    if newLength.toNat > state.effectiveLength then
      .error ⟨"truncate increases the effective length"⟩
    else .ok { state with
      effectiveLength := newLength.toNat
      truncate := some newLength.toNat
      blocks := state.blocks.filter fun block =>
        decide (block.stop < 2 ^ 64) && decide (block.stop ≤ newLength.toNat) }
  | .sealed finalBlake3 =>
    if state.sealed.isSome || !last then .error ⟨"sealed record is not unique and final"⟩
    else .ok { state with «sealed» := some finalBlake3 }

def applyRecords : EffectiveState → List FramedRecord → Except JournalStateError EffectiveState
  | state, [] => .ok state
  | state, framed :: rest =>
    match applyRecord rest.isEmpty state framed.record with
    | .error error => .error error
    | .ok next => applyRecords next rest

/-- The overlap test over neighbours of the sorted blocks. -/
def checkAdjacent : List CompletedBlock → Except JournalStateError Unit
  | first :: second :: rest =>
    match first.checkedEnd with
    | .error error => .error error
    | .ok previousEnd =>
      if second.start < previousEnd then .error ⟨"surviving completed blocks overlap"⟩
      else checkAdjacent (second :: rest)
  | _ => .ok ()

def effectiveState (header : FileHeader) (records : List FramedRecord) :
    Except JournalStateError EffectiveState :=
  match applyRecords (initialState header) records with
  | .error error => .error error
  | .ok state =>
    let blocks := state.blocks.insertionSort CompletedBlock.Earlier
    match checkAdjacent blocks with
    | .error error => .error error
    | .ok () => .ok { state with blocks := blocks }

structure Fits (limit : Nat) (block : CompletedBlock) : Prop where
  positive : 0 < block.len.toNat
  inside : block.stop ≤ limit

inductive Applied (last : Bool) (state : EffectiveState) : JournalRecord → EffectiveState → Prop where
  | block (offset : UInt64) (len : UInt32) (blake3 : Digest)
      (fits : Fits state.effectiveLength ⟨offset, len, blake3⟩)
      (representable : (CompletedBlock.mk offset len blake3).stop < 2 ^ 64) :
      Applied last state (.blockComplete offset len blake3)
        { state with blocks := state.blocks ++ [⟨offset, len, blake3⟩] }
  | checkpoint (coveredBytes wallClock : UInt64) :
      Applied last state (.checkpoint coveredBytes wallClock) state
  | identity (cbor : List UInt8) :
      Applied last state (.identityUpdate cbor)
        { state with identities := state.identities ++ [cbor] }
  | truncate (newLength : UInt64) (shorter : newLength.toNat ≤ state.effectiveLength) :
      Applied last state (.truncate newLength)
        { state with
          effectiveLength := newLength.toNat
          truncate := some newLength.toNat
          blocks := state.blocks.filter fun block =>
            decide (block.stop < 2 ^ 64) && decide (block.stop ≤ newLength.toNat) }
  | finish (finalBlake3 : Digest) (unsealed : state.sealed = none) (final : last = true) :
      Applied last state (.sealed finalBlake3) { state with «sealed» := some finalBlake3 }

theorem apply_record_applied (last : Bool) (state next : EffectiveState) (record : JournalRecord) :
    applyRecord last state record = .ok next ↔ Applied last state record next := by
  constructor
  · intro applied
    cases record with
    | blockComplete offset len blake3 =>
      simp only [applyRecord, CompletedBlock.checkedEnd] at applied
      split at applied
      next => cases applied
      next nonzero =>
        split at applied
        next => cases applied
        next stop ended =>
          split at ended
          next representable =>
            cases ended
            split at applied
            next => cases applied
            next inside =>
              cases applied
              have positive : 0 < len.toNat :=
                Nat.pos_of_ne_zero fun none => nonzero (UInt32.toNat_inj.mp none)
              exact Applied.block offset len blake3 ⟨positive, Nat.not_lt.mp inside⟩ representable
          next => cases ended
    | checkpoint coveredBytes wallClock =>
      cases applied
      exact Applied.checkpoint coveredBytes wallClock
    | identityUpdate cbor =>
      cases applied
      exact Applied.identity cbor
    | truncate newLength =>
      simp only [applyRecord] at applied
      split at applied
      next => cases applied
      next shorter =>
        cases applied
        exact Applied.truncate newLength (Nat.not_lt.mp shorter)
    | «sealed» finalBlake3 =>
      simp only [applyRecord] at applied
      split at applied
      next => cases applied
      next allowed =>
        cases applied
        simp only [Bool.or_eq_true, Bool.not_eq_true', not_or, Bool.not_eq_true,
          Bool.not_eq_false, Option.isSome_eq_false_iff, Option.isNone_iff_eq_none] at allowed
        exact Applied.finish finalBlake3 allowed.1 allowed.2
  · intro applied
    cases applied with
    | block offset len blake3 fits representable =>
      have nonzero : ¬ len = 0 := by
        rintro rfl
        exact Nat.lt_irrefl 0 fits.positive
      simp only [applyRecord, CompletedBlock.checkedEnd, nonzero, representable, ↓reduceIte]
      rw [if_neg (Nat.not_lt.mpr fits.inside)]
    | checkpoint => rfl
    | identity => rfl
    | truncate newLength shorter =>
      simp only [applyRecord]
      rw [if_neg (Nat.not_lt.mpr shorter)]
    | finish finalBlake3 unsealed final => simp [applyRecord, unsealed, final]

theorem apply_block (last : Bool) (offset : UInt64) (len : UInt32)
    (blake3 : Digest) (next : EffectiveState) (bounded : state.effectiveLength < 2 ^ 64) :
    applyRecord last state (.blockComplete offset len blake3) = .ok next ↔
      Fits state.effectiveLength ⟨offset, len, blake3⟩ ∧
        next = { state with blocks := state.blocks ++ [⟨offset, len, blake3⟩] } := by
  rw [apply_record_applied]
  constructor
  · intro applied
    cases applied with
    | block _ _ _ fits _ => exact ⟨fits, rfl⟩
  · rintro ⟨fits, rfl⟩
    exact Applied.block offset len blake3 fits (Nat.lt_of_le_of_lt fits.inside bounded)

theorem apply_records_preserves (kept : EffectiveState → Prop)
    (step : ∀ last state next record, Applied last state record next → kept state → kept next)
    (state next : EffectiveState) (records : List FramedRecord) (initial : kept state)
    (applied : applyRecords state records = .ok next) : kept next := by
  induction records generalizing state with
  | nil =>
    cases applied
    exact initial
  | cons framed rest ih =>
    simp only [applyRecords] at applied
    split at applied
    · cases applied
    next middle first =>
      exact ih middle
        (step _ state middle _ ((apply_record_applied _ state middle _).mp first) initial) applied

structure Folded (state : EffectiveState) : Prop where
  bounded : state.effectiveLength < 2 ^ 64
  fits : ∀ block ∈ state.blocks, Fits state.effectiveLength block

theorem initial_folded (header : FileHeader) : Folded (initialState header) :=
  ⟨header.totalLength.toNat_lt, by simp [initialState]⟩

theorem applied_folded (last : Bool) (state next : EffectiveState) (record : JournalRecord)
    (applied : Applied last state record next) (folded : Folded state) : Folded next := by
  cases applied with
  | block offset len blake3 fits _ =>
    refine ⟨folded.bounded, ?_⟩
    intro block mem
    rcases List.mem_append.mp mem with old | new
    · exact folded.fits block old
    · rw [List.mem_singleton.mp new]
      exact fits
  | checkpoint => exact folded
  | identity => exact ⟨folded.bounded, folded.fits⟩
  | truncate newLength =>
    refine ⟨newLength.toNat_lt, ?_⟩
    intro block mem
    obtain ⟨old, kept⟩ := List.mem_filter.mp mem
    simp only [Bool.and_eq_true, decide_eq_true_eq] at kept
    exact ⟨(folded.fits block old).positive, kept.2⟩
  | finish => exact ⟨folded.bounded, folded.fits⟩

variable {state next : EffectiveState} {records : List FramedRecord} {blocks : List CompletedBlock}
    {header : FileHeader}

theorem apply_records_folded (folded : Folded state)
    (applied : applyRecords state records = .ok next) : Folded next :=
  apply_records_preserves Folded applied_folded state next records folded applied

theorem check_adjacent_iff (representable : ∀ block ∈ blocks, block.stop < 2 ^ 64) :
    checkAdjacent blocks = .ok () ↔ blocks.IsChain fun left right => left.stop ≤ right.start := by
  induction blocks with
  | nil => simp [checkAdjacent]
  | cons first rest ih =>
    cases rest with
    | nil => simp [checkAdjacent]
    | cons second rest =>
      have ends : first.stop < 2 ^ 64 := representable first List.mem_cons_self
      have tail := ih fun block mem => representable block (List.mem_cons_of_mem _ mem)
      simp only [checkAdjacent, CompletedBlock.checkedEnd, ends, ↓reduceIte,
        List.isChain_cons_cons, ← tail]
      by_cases overlap : second.start < first.stop
      · simp [overlap]
      · simp [overlap, Nat.not_lt.mp overlap]

theorem adjacent_ordered (fits : ∀ block ∈ blocks, Fits limit block)
    (adjacent : blocks.IsChain fun left right => left.stop ≤ right.start) :
    blocks.Pairwise fun left right => left.stop ≤ right.start := by
  induction blocks with
  | nil => exact List.Pairwise.nil
  | cons first rest ih =>
    have tailFits := fun block mem => fits block (List.mem_cons_of_mem first mem)
    have ordered := ih tailFits adjacent.tail
    refine List.Pairwise.cons ?_ ordered
    cases rest with
    | nil => simp
    | cons second rest =>
      have near := (List.isChain_cons_cons.mp adjacent).1
      intro block mem
      rcases List.mem_cons.mp mem with same | later
      · rw [same]
        exact near
      · have middle := (List.pairwise_cons.mp ordered).1 block later
        have width : second.start ≤ second.stop := Nat.le_add_right _ _
        exact near.trans (width.trans middle)

theorem sorted_adjacent (fits : ∀ block ∈ blocks, Fits limit block)
    (apart : blocks.Pairwise CompletedBlock.Apart) (sorted : blocks.Pairwise CompletedBlock.Earlier)
    :
    blocks.IsChain fun left right => left.stop ≤ right.start := by
  apply List.Pairwise.isChain
  have both := apart.and sorted
  refine both.imp_of_mem ?_
  intro left right _ rightMember ⟨disjoint, earlier⟩
  rcases disjoint with before | after
  · exact before
  · have positive := (fits right rightMember).positive
    have wide : right.stop = right.start + right.len.toNat := rfl
    have order : left.start ≤ right.start := earlier
    omega

/-- What an accepted journal describes: blocks in offset order, without
overlap, non-empty and inside the effective length. -/
structure Accepted (state : EffectiveState) : Prop extends Folded state where
  ordered : state.blocks.Pairwise fun left right => left.stop ≤ right.start

theorem effective_state_accepted (accepted : effectiveState header records = .ok state) :
    Accepted state := by
  unfold effectiveState at accepted
  split at accepted
  · cases accepted
  next folded applied =>
    have invariant := apply_records_folded (initial_folded header) applied
    have fits : ∀ block ∈ folded.blocks.insertionSort CompletedBlock.Earlier,
        Fits folded.effectiveLength block := by
      intro block mem
      exact invariant.fits block (List.mem_insertionSort _ |>.mp mem)
    simp only at accepted
    split at accepted
    · cases accepted
    next checked =>
      cases accepted
      have bounded := invariant.bounded
      have adjacent := (check_adjacent_iff fun block mem =>
        Nat.lt_of_le_of_lt (fits block mem).inside bounded).mp checked
      exact ⟨⟨bounded, fits⟩, adjacent_ordered fits adjacent⟩

theorem applied_shrinks
    (applied : Applied last state record next) : next.effectiveLength ≤ state.effectiveLength := by
  cases applied with
  | truncate newLength shorter => exact shorter
  | _ => exact le_rfl

theorem apply_records_shrinks (applied : applyRecords state records = .ok next) :
    next.effectiveLength ≤ state.effectiveLength :=
  apply_records_preserves (fun reached => reached.effectiveLength ≤ state.effectiveLength)
    (fun _ _ _ _ applied shorter => (applied_shrinks applied).trans shorter)
    state next records le_rfl applied

theorem effective_length_le (accepted : effectiveState header records = .ok state) :
    state.effectiveLength ≤ header.totalLength.toNat := by
  unfold effectiveState at accepted
  split at accepted
  · cases accepted
  next folded applied =>
    simp only at accepted
    split at accepted
    · cases accepted
    · cases accepted
      exact apply_records_shrinks applied

theorem effective_state_disjoint (applied : applyRecords (initialState header) records = .ok folded)
    (apart : folded.blocks.Pairwise CompletedBlock.Apart) :
    effectiveState header records =
      .ok { folded with blocks := folded.blocks.insertionSort CompletedBlock.Earlier } := by
  have invariant := apply_records_folded (initial_folded header) applied
  have permuted := List.perm_insertionSort CompletedBlock.Earlier folded.blocks
  have fits : ∀ block ∈ folded.blocks.insertionSort CompletedBlock.Earlier,
      Fits folded.effectiveLength block := fun block mem =>
    invariant.fits block (permuted.mem_iff.mp mem)
  have symmetric : ∀ {left right : CompletedBlock}, left.Apart right → right.Apart left :=
    fun disjoint => disjoint.symm
  have sortedApart := (permuted.pairwise_iff symmetric).mpr apart
  have adjacent := sorted_adjacent fits sortedApart
    (List.pairwise_insertionSort CompletedBlock.Earlier folded.blocks)
  have checked := (check_adjacent_iff fun block mem =>
    Nat.lt_of_le_of_lt (fits block mem).inside invariant.bounded).mpr adjacent
  simp [effectiveState, applied, checked]

def CompletedBlock.asRecord (block : CompletedBlock) : JournalRecord :=
  .blockComplete block.offset block.len block.blake3

theorem apply_blocks (state : EffectiveState) (bounded : state.effectiveLength < 2 ^ 64)
    (recorded : frames.map FramedRecord.record = blocks.map CompletedBlock.asRecord)
    (fits : ∀ block ∈ blocks, Fits state.effectiveLength block) :
    applyRecords state frames = .ok { state with blocks := state.blocks ++ blocks } := by
  induction frames generalizing state blocks with
  | nil =>
    have none : blocks = [] := by simpa using recorded.symm
    simp [applyRecords, none]
  | cons framed rest ih =>
    cases blocks with
    | nil => simp at recorded
    | cons block others =>
      simp only [List.map_cons, List.cons.injEq] at recorded
      have applied := (apply_block rest.isEmpty block.offset block.len block.blake3 _
        bounded).mpr ⟨fits block List.mem_cons_self, rfl⟩
      rw [applyRecords, recorded.1, CompletedBlock.asRecord, applied]
      have tail := ih { state with blocks := state.blocks ++ [block] } bounded recorded.2
        fun other mem => fits other (List.mem_cons_of_mem block mem)
      simpa using tail

/-! Records behind the records of an accepted journal. -/

theorem apply_record_cases (applied : applyRecord last state record = .ok next) :
    (next.sealed = state.sealed ∧ ∀ other, applyRecord other state record = .ok next) ∨
    (last = true ∧ next.sealed ≠ none ∧ ∃ error, applyRecord false state record = .error error) := by
  cases (apply_record_applied last state next record).mp applied with
  | finish finalBlake3 unsealed final =>
    exact Or.inr ⟨final, nofun, _, by simp [applyRecord]; rfl⟩
  | block offset len blake3 fits representable =>
    exact Or.inl ⟨rfl, fun other => (apply_record_applied other state _ _).mpr
      (Applied.block offset len blake3 fits representable)⟩
  | checkpoint => exact Or.inl ⟨rfl, fun _ => applied⟩
  | identity => exact Or.inl ⟨rfl, fun _ => applied⟩
  | truncate => exact Or.inl ⟨rfl, fun _ => applied⟩

theorem apply_records_append
    (right : List FramedRecord) (applied : applyRecords state left = .ok middle)
    (unsealed : middle.sealed = none) :
    applyRecords state (left ++ right) = applyRecords middle right := by
  induction left generalizing state with
  | nil =>
    cases applied
    rfl
  | cons framed rest ih =>
    simp only [applyRecords] at applied
    split at applied
    · cases applied
    next next first =>
      rcases apply_record_cases first with
        ⟨_, anywhere⟩ | ⟨last, sealing, _⟩
      · rw [List.cons_append, applyRecords, anywhere]
        exact ih applied
      · -- The seal is the last record, so it would still stand at the end.
        rw [List.isEmpty_iff.mp last] at applied
        cases applied
        exact absurd unsealed sealing

theorem apply_records_sealed
    (applied : applyRecords state left = .ok middle) (unsealed : state.sealed = none)
    (sealing : middle.sealed ≠ none) (more : right ≠ []) :
    ∃ error, applyRecords state (left ++ right) = .error error := by
  induction left generalizing state with
  | nil =>
    cases applied
    exact absurd unsealed sealing
  | cons framed rest ih =>
    simp only [applyRecords] at applied
    split at applied
    · cases applied
    next next first =>
      rcases apply_record_cases first with
        ⟨same, anywhere⟩ | ⟨_, _, error, refused⟩
      · obtain ⟨error, failed⟩ := ih applied (same.trans unsealed)
        refine ⟨error, ?_⟩
        rw [List.cons_append, applyRecords, anywhere]
        exact failed
      · refine ⟨error, ?_⟩
        have notLast : (rest ++ right).isEmpty = false := by simp [more]
        rw [List.cons_append, applyRecords, notLast, refused]

theorem apply_records_unshortened (applied : applyRecords state records = .ok final) :
    final.effectiveLength = state.effectiveLength ↔ ∀ framed ∈ records, ∀ newLength,
      framed.record = .truncate newLength → newLength.toNat = state.effectiveLength := by
  -- The effective length stays only if every Truncate names the length it finds.
  induction records generalizing state with
  | nil =>
    cases applied
    simp
  | cons framed rest ih =>
    simp only [applyRecords] at applied
    split at applied
    · cases applied
    next next first =>
      have later := apply_records_shrinks applied
      have tail := ih applied
      obtain ⟨sequence, record⟩ := framed
      simp only [List.forall_mem_cons]
      cases (apply_record_applied _ state next record).mp first with
      | truncate newLength shorter =>
        simp only [JournalRecord.truncate.injEq, forall_eq'] at later tail ⊢
        constructor
        · intro whole
          have same : newLength.toNat = state.effectiveLength := by omega
          refine ⟨same, ?_⟩
          rw [← same]
          exact tail.mp (whole.trans same.symm)
        · rintro ⟨same, others⟩
          rw [← same] at others ⊢
          exact tail.mpr others
      | block | checkpoint | identity | finish => simpa using tail

theorem effective_state_iff (header : FileHeader) (records : List FramedRecord)
    (state : EffectiveState) :
    effectiveState header records = .ok state ↔
      ∃ folded, applyRecords (initialState header) records = .ok folded ∧
        folded.blocks.Pairwise CompletedBlock.Apart ∧
        state = { folded with blocks := folded.blocks.insertionSort CompletedBlock.Earlier } := by
  constructor
  · intro accepted
    have sound := effective_state_accepted accepted
    unfold effectiveState at accepted
    split at accepted
    · cases accepted
    next folded applied =>
      simp only at accepted
      split at accepted
      · cases accepted
      · cases accepted
        have permuted := List.perm_insertionSort CompletedBlock.Earlier folded.blocks
        have symmetric : ∀ {left right : CompletedBlock}, left.Apart right → right.Apart left :=
          fun disjoint => disjoint.symm
        exact ⟨folded, applied, (permuted.pairwise_iff symmetric).mp (sound.ordered.imp Or.inl), rfl⟩
  · rintro ⟨folded, applied, apart, rfl⟩
    exact effective_state_disjoint applied apart

theorem effective_length_whole_iff (accepted : effectiveState header records = .ok state) :
    state.effectiveLength = header.totalLength.toNat ↔ ∀ framed ∈ records, ∀ newLength,
      framed.record = .truncate newLength → newLength = header.totalLength := by
  obtain ⟨folded, applied, _, rfl⟩ := (effective_state_iff header records state).mp accepted
  simp only [← UInt64.toNat_inj]
  exact apply_records_unshortened applied

structure Extends (state : EffectiveState) (blocks : List CompletedBlock)
    (extended : EffectiveState) : Prop where
  length : extended.effectiveLength = state.effectiveLength
  joined : extended.blocks.Perm (state.blocks ++ blocks)
  apart : (state.blocks ++ blocks).Pairwise CompletedBlock.Apart

theorem effective_state_extends (accepted : effectiveState header records = .ok state)
    (recorded : frames.map FramedRecord.record = blocks.map CompletedBlock.asRecord)
    (fits : ∀ block ∈ blocks, Fits state.effectiveLength block) :
    (∀ extended, effectiveState header (records ++ frames) = .ok extended →
      (frames = [] ∨ state.sealed = none) ∧ Extends state blocks extended) ∧
    ((frames = [] ∨ state.sealed = none) →
      (state.blocks ++ blocks).Pairwise CompletedBlock.Apart →
      ∃ extended, effectiveState header (records ++ frames) = .ok extended) := by
  obtain ⟨folded, applied, apart, rfl⟩ := (effective_state_iff header records state).mp accepted
  have invariant := apply_records_folded (initial_folded header) applied
  have permuted := List.perm_insertionSort CompletedBlock.Earlier folded.blocks
  have symmetric : ∀ {left right : CompletedBlock}, left.Apart right → right.Apart left :=
    fun disjoint => disjoint.symm
  have joined : (folded.blocks.insertionSort CompletedBlock.Earlier ++ blocks).Perm
      (folded.blocks ++ blocks) := permuted.append_right blocks
  have onward : (frames = [] ∨ folded.sealed = none) →
      applyRecords (initialState header) (records ++ frames) =
        .ok { folded with blocks := folded.blocks ++ blocks } := by
    rintro (rfl | unsealed)
    · have none : blocks = [] := by simpa using recorded.symm
      rw [none, List.append_nil, List.append_nil]
      exact applied
    · rw [apply_records_append _ applied unsealed]
      exact apply_blocks folded invariant.bounded recorded fits
  constructor
  · intro extended extendedOk
    obtain ⟨later, laterApplied, laterApart, rfl⟩ :=
      (effective_state_iff header (records ++ frames) extended).mp extendedOk
    have unsealed : frames = [] ∨ folded.sealed = none := by
      by_contra sealing
      rw [not_or] at sealing
      obtain ⟨error, failed⟩ := apply_records_sealed
        applied rfl sealing.2 sealing.1
      rw [failed] at laterApplied
      cases laterApplied
    rw [onward unsealed] at laterApplied
    cases laterApplied
    refine ⟨unsealed, rfl, ?_, (joined.pairwise_iff symmetric).mpr laterApart⟩
    exact (List.perm_insertionSort CompletedBlock.Earlier _).trans joined.symm
  · intro unsealed allApart
    exact ⟨_, effective_state_disjoint (onward unsealed)
      ((joined.pairwise_iff symmetric).mp allApart)⟩

end Downpour.JournalState
