import Downpour.JournalState

/-!
What a record sequence says, stated without the fold: which sequences describe a
state at all, which blocks survive, and that the order of block records between two
truncations does not matter. `effective_state` is shown to be exactly this reading.
-/

namespace Downpour.RecordFold
open JournalFormat JournalState

def truncates (records : List JournalRecord) : List Nat :=
  records.filterMap fun record =>
    match record with
    | .truncate newLength => some newLength.toNat
    | _ => none

def lengthAfter (total : Nat) (records : List JournalRecord) : Nat :=
  (truncates records).getLast?.getD total

def identityPayloads (records : List JournalRecord) : List (List UInt8) :=
  records.filterMap fun record =>
    match record with
    | .identityUpdate cbor => some cbor
    | _ => none

def sealedDigests (records : List JournalRecord) : List Digest :=
  records.filterMap fun record =>
    match record with
    | .sealed finalBlake3 => some finalBlake3
    | _ => none

def Survives (block : CompletedBlock) (later : List JournalRecord) : Prop :=
  ∀ newLength ∈ truncates later, block.stop ≤ newLength

instance (block : CompletedBlock) (later : List JournalRecord) : Decidable (Survives block later) :=
  inferInstanceAs (Decidable (∀ newLength ∈ truncates later, block.stop ≤ newLength))

def survivors : List JournalRecord → List CompletedBlock
  | [] => []
  | .blockComplete offset len blake3 :: later =>
    if Survives ⟨offset, len, blake3⟩ later then ⟨offset, len, blake3⟩ :: survivors later
    else survivors later
  | _ :: later => survivors later

/-- Every record is possible at its place. A seal is last, so there is at most one. -/
structure Possible (total : Nat) (records : List JournalRecord) : Prop where
  blocks : ∀ before block later, records = before ++ CompletedBlock.asRecord block :: later →
    Fits (lengthAfter total before) block
  truncates : ∀ before newLength later, records = before ++ .truncate newLength :: later →
    newLength.toNat ≤ lengthAfter total before
  seals : ∀ before finalBlake3 later, records = before ++ .sealed finalBlake3 :: later → later = []

def described (total : Nat) (records : List JournalRecord) : EffectiveState where
  effectiveLength := lengthAfter total records
  truncate := (truncates records).getLast?
  identities := identityPayloads records
  blocks := (survivors records).insertionSort CompletedBlock.Earlier
  «sealed» := (sealedDigests records).getLast?

/-- One record on its own: what it needs, and the length in force behind it. -/
def Allowed (total : Nat) (last : Bool) : JournalRecord → Prop
  | .blockComplete offset len blake3 => Fits total ⟨offset, len, blake3⟩
  | .truncate newLength => newLength.toNat ≤ total
  | .sealed _ => last = true
  | _ => True

@[simp]
theorem truncates_append (left right : List JournalRecord) :
    truncates (left ++ right) = truncates left ++ truncates right :=
  List.filterMap_append

@[simp]
theorem identity_payloads_append (left right : List JournalRecord) :
    identityPayloads (left ++ right) = identityPayloads left ++ identityPayloads right :=
  List.filterMap_append

@[simp]
theorem sealed_digests_append (left right : List JournalRecord) :
    sealedDigests (left ++ right) = sealedDigests left ++ sealedDigests right :=
  List.filterMap_append

theorem length_after_append (total : Nat) (left right : List JournalRecord) :
    lengthAfter total (left ++ right) = lengthAfter (lengthAfter total left) right := by
  rw [lengthAfter, truncates_append, List.getLast?_append, lengthAfter, lengthAfter]
  cases (truncates right).getLast? <;> rfl

theorem survives_append (block : CompletedBlock) (left right : List JournalRecord) :
    Survives block (left ++ right) ↔ Survives block left ∧ Survives block right := by
  simp only [Survives, truncates_append, List.mem_append, or_imp, forall_and]

theorem survivors_append (left right : List JournalRecord) :
    survivors (left ++ right) =
      (survivors left).filter (fun block => decide (Survives block right)) ++ survivors right := by
  -- Later records only cut survivors away.
  induction left with
  | nil => rfl
  | cons record rest ih =>
    cases record with
    | blockComplete offset len blake3 =>
      simp only [List.cons_append, survivors, survives_append, ih]
      by_cases early : Survives ⟨offset, len, blake3⟩ rest
      · by_cases late : Survives ⟨offset, len, blake3⟩ right <;> simp [early, late]
      · simp [early]
    | _ => exact ih

theorem possible_nil (total : Nat) : Possible total [] := by
  constructor <;> simp

theorem possible_cons (total : Nat) (record : JournalRecord) (later : List JournalRecord) :
    Possible total (record :: later) ↔
      Allowed total later.isEmpty record ∧ Possible (lengthAfter total [record]) later := by
  have behind : ∀ before, lengthAfter (lengthAfter total [record]) before =
      lengthAfter total (record :: before) := fun before =>
    (length_after_append total [record] before).symm
  constructor
  · intro possible
    constructor
    · cases record with
      | blockComplete offset len blake3 => exact possible.blocks [] ⟨offset, len, blake3⟩ later rfl
      | truncate newLength => exact possible.truncates [] newLength later rfl
      | «sealed» finalBlake3 => exact List.isEmpty_iff.mpr (possible.seals [] finalBlake3 later rfl)
      | checkpoint => trivial
      | identityUpdate => trivial
    · constructor
      · rintro before block after rfl
        rw [behind]
        exact possible.blocks (record :: before) block after rfl
      · rintro before newLength after rfl
        rw [behind]
        exact possible.truncates (record :: before) newLength after rfl
      · rintro before finalBlake3 after rfl
        exact possible.seals (record :: before) finalBlake3 after rfl
  · rintro ⟨allowed, possible⟩
    constructor
    · intro before block after split
      cases before with
      | nil =>
        cases split
        exact allowed
      | cons first before =>
        cases split
        have fits := possible.blocks before block after rfl
        rwa [behind] at fits
    · intro before newLength after split
      cases before with
      | nil =>
        cases split
        exact allowed
      | cons first before =>
        cases split
        have shorter := possible.truncates before newLength after rfl
        rwa [behind] at shorter
    · intro before finalBlake3 after split
      cases before with
      | nil =>
        cases split
        exact List.isEmpty_iff.mp allowed
      | cons first before =>
        cases split
        exact possible.seals before finalBlake3 after rfl

def continued (state : EffectiveState) (records : List JournalRecord) : EffectiveState where
  effectiveLength := lengthAfter state.effectiveLength records
  truncate := (truncates records).getLast?.or state.truncate
  identities := state.identities ++ identityPayloads records
  blocks := state.blocks.filter (fun block => decide (Survives block records)) ++ survivors records
  «sealed» := (sealedDigests records).getLast?.or state.sealed

theorem continued_nil (state : EffectiveState) : continued state [] = state := by
  obtain ⟨effectiveLength, truncate, identities, blocks, digest⟩ := state
  simp [continued, lengthAfter, truncates, identityPayloads, sealedDigests, survivors, Survives]

theorem continued_append (state : EffectiveState) (left right : List JournalRecord) :
    continued (continued state left) right = continued state (left ++ right) := by
  simp only [continued, length_after_append, truncates_append, identity_payloads_append,
    sealed_digests_append, List.getLast?_append, Option.or_assoc, survivors_append,
    List.filter_append, List.filter_filter, List.append_assoc, survives_append,
    Bool.decide_and, Bool.and_comm]

variable {last : Bool} {state : EffectiveState} {record : JournalRecord}
    {between : List JournalRecord}

theorem applied_continued (folded : Folded state) (applied : Applied last state record next) :
    Allowed state.effectiveLength last record ∧ next = continued state [record] := by
  cases applied with
  | block offset len blake3 fits _ =>
    refine ⟨fits, ?_⟩
    simp [continued, lengthAfter, truncates, identityPayloads, sealedDigests, survivors, Survives]
  | checkpoint => exact ⟨trivial, (continued_nil state).symm⟩
  | identity cbor =>
    refine ⟨trivial, ?_⟩
    simp [continued, lengthAfter, truncates, identityPayloads, sealedDigests, survivors, Survives]
  | truncate newLength shorter =>
    refine ⟨shorter, ?_⟩
    -- Accepted blocks end below `2 ^ 64`, so only the new length decides.
    have kept : state.blocks.filter (fun block =>
        decide (block.stop < 2 ^ 64) && decide (block.stop ≤ newLength.toNat)) =
        state.blocks.filter fun block => decide (Survives block [.truncate newLength]) := by
      apply List.filter_congr
      intro block mem
      have representable := Nat.lt_of_le_of_lt (folded.fits block mem).inside folded.bounded
      rw [decide_eq_true representable, Bool.true_and]
      simp [Survives, truncates]
    rw [kept]
    simp [continued, lengthAfter, truncates, identityPayloads, sealedDigests, survivors]
  | finish finalBlake3 _ final =>
    refine ⟨final, ?_⟩
    simp [continued, lengthAfter, truncates, identityPayloads, sealedDigests, survivors, Survives]

theorem allowed_applied (folded : Folded state) (unsealed : state.sealed = none)
    (allowed : Allowed state.effectiveLength last record) :
    ∃ next, Applied last state record next := by
  cases record with
  | blockComplete offset len blake3 =>
    exact ⟨_, Applied.block offset len blake3 allowed
      (Nat.lt_of_le_of_lt allowed.inside folded.bounded)⟩
  | checkpoint coveredBytes wallClock => exact ⟨_, Applied.checkpoint coveredBytes wallClock⟩
  | identityUpdate cbor => exact ⟨_, Applied.identity cbor⟩
  | truncate newLength => exact ⟨_, Applied.truncate newLength allowed⟩
  | «sealed» finalBlake3 => exact ⟨_, Applied.finish finalBlake3 unsealed allowed⟩

theorem continued_unsealed (unsealed : state.sealed = none)
    (allowed : Allowed state.effectiveLength last record) :
    (continued state [record]).sealed = none ∨ last = true := by
  cases record with
  | «sealed» finalBlake3 => exact Or.inr allowed
  | _ => exact Or.inl unsealed

theorem apply_records_iff (final : EffectiveState)
    (folded : Folded state) (unsealed : state.sealed = none ∨ frames = []) :
    applyRecords state frames = .ok final ↔
      Possible state.effectiveLength (frames.map FramedRecord.record) ∧
        final = continued state (frames.map FramedRecord.record) := by
  -- The fold, from any state in which no seal stands before a record.
  induction frames generalizing state with
  | nil =>
    simp only [applyRecords, Except.ok.injEq, List.map_nil, possible_nil, true_and, continued_nil]
    exact eq_comm
  | cons framed rest ih =>
    have open_ : state.sealed = none := unsealed.resolve_right (by simp)
    have last : (rest.map FramedRecord.record).isEmpty = rest.isEmpty := by cases rest <;> rfl
    have tail : ∀ next, Applied rest.isEmpty state framed.record next →
        (applyRecords next rest = .ok final ↔
          Possible (lengthAfter state.effectiveLength [framed.record])
              (rest.map FramedRecord.record) ∧
            final = continued state ((framed :: rest).map FramedRecord.record)) := by
      intro next step
      have kept := applied_folded _ state next _ step folded
      obtain ⟨allowed, rfl⟩ := applied_continued folded step
      have later := (continued_unsealed open_ allowed).imp_right List.isEmpty_iff.mp
      rw [ih kept later, continued_append]
      rfl
    rw [List.map_cons, possible_cons, last, applyRecords]
    constructor
    · intro applied
      split at applied
      · cases applied
      next next first =>
        have step := (apply_record_applied _ state next _).mp first
        obtain ⟨possible, same⟩ := (tail next step).mp applied
        exact ⟨⟨(applied_continued folded step).1, possible⟩, same⟩
    · rintro ⟨⟨allowed, possible⟩, same⟩
      obtain ⟨next, step⟩ := allowed_applied folded open_ allowed
      rw [(apply_record_applied _ state next _).mpr step]
      exact (tail next step).mpr ⟨possible, same⟩

theorem effective_state_described (header : FileHeader) (frames : List FramedRecord)
    (state : EffectiveState) :
    effectiveState header frames = .ok state ↔
      Possible header.totalLength.toNat (frames.map FramedRecord.record) ∧
        (survivors (frames.map FramedRecord.record)).Pairwise CompletedBlock.Apart ∧
        state = described header.totalLength.toNat (frames.map FramedRecord.record) := by
  have start : ∀ records, { continued (initialState header) records with
      blocks := (continued (initialState header) records).blocks.insertionSort
        CompletedBlock.Earlier } = described header.totalLength.toNat records := by
    intro records
    simp [continued, described, initialState]
  rw [effective_state_iff]
  constructor
  · rintro ⟨folded, applied, apart, rfl⟩
    obtain ⟨possible, rfl⟩ := (apply_records_iff folded (initial_folded header)
      (Or.inl rfl)).mp applied
    exact ⟨possible, apart, start _⟩
  · rintro ⟨possible, apart, rfl⟩
    exact ⟨_, (apply_records_iff _ (initial_folded header) (Or.inl rfl)).mpr ⟨possible, rfl⟩,
      apart, (start _).symm⟩

/-! The order of block records. -/

inductive Permuted : List JournalRecord → List JournalRecord → Prop where
  | refl (records : List JournalRecord) : Permuted records records
  | swap (before between later : List JournalRecord) (left right : CompletedBlock)
      (uncut : ∀ newLength, JournalRecord.truncate newLength ∉ between) :
      Permuted (before ++ left.asRecord :: (between ++ right.asRecord :: later))
        (before ++ right.asRecord :: (between ++ left.asRecord :: later))
  | trans (first second third : List JournalRecord) (left : Permuted first second)
      (right : Permuted second third) : Permuted first third

theorem uncut_truncates
    (uncut : ∀ newLength, JournalRecord.truncate newLength ∉ records) : truncates records = [] := by
  rw [truncates, List.filterMap_eq_nil_iff]
  intro record mem
  cases record with
  | truncate newLength => exact absurd mem (uncut newLength)
  | _ => rfl

theorem possible_uncut (total : Nat) (later : List JournalRecord) (block : CompletedBlock)
    (uncut : ∀ newLength, JournalRecord.truncate newLength ∉ between) :
    Possible total (between ++ block.asRecord :: later) ↔
      Fits total block ∧ Possible total (between ++ .checkpoint 0 0 :: later) := by
  -- A block record needs only the length in force, which no other record than a Truncate changes.
  induction between with
  | nil =>
    rw [List.nil_append, List.nil_append, possible_cons, possible_cons]
    exact and_congr_right fun _ => (true_and _).symm ▸ Iff.rfl
  | cons record rest ih =>
    have length : lengthAfter total [record] = total := by
      rw [lengthAfter, uncut_truncates fun newLength mem =>
        uncut newLength (List.mem_cons.mpr (Or.inl (List.mem_singleton.mp mem)))]
      rfl
    have tail := ih fun newLength mem => uncut newLength (List.mem_cons_of_mem record mem)
    have more : ∀ other : JournalRecord, (rest ++ other :: later).isEmpty = false := by simp
    rw [List.cons_append, List.cons_append, possible_cons, possible_cons, length, tail, more, more]
    exact and_left_comm

theorem possible_behind (before : List JournalRecord) (total : Nat)
    (nonempty : left.isEmpty = right.isEmpty)
    (same : ∀ length, Possible length left ↔ Possible length right) :
    Possible total (before ++ left) ↔ Possible total (before ++ right) := by
  induction before generalizing total with
  | nil => exact same total
  | cons record rest ih =>
    have last : (rest ++ left).isEmpty = (rest ++ right).isEmpty := by
      cases rest with
      | nil => exact nonempty
      | cons => rfl
    rw [List.cons_append, List.cons_append, possible_cons, possible_cons, last, ih]

structure Alike (left right : List JournalRecord) : Prop where
  possible : ∀ total, Possible total left ↔ Possible total right
  truncates : truncates left = truncates right
  identities : identityPayloads left = identityPayloads right
  seals : sealedDigests left = sealedDigests right
  survivors : (survivors left).Perm (survivors right)

theorem survivors_block (block : CompletedBlock) (between later : List JournalRecord)
    (uncut : ∀ newLength, JournalRecord.truncate newLength ∉ between) :
    survivors (block.asRecord :: (between ++ later)) =
      (if Survives block later then [block] else []) ++ survivors (between ++ later) := by
  have survives : Survives block (between ++ later) ↔ Survives block later := by
    rw [Survives, Survives, truncates_append, uncut_truncates uncut, List.nil_append]
  show (if Survives block (between ++ later) then block :: survivors (between ++ later)
    else survivors (between ++ later)) = _
  by_cases kept : Survives block later
  · rw [if_pos (survives.mpr kept), if_pos kept, List.singleton_append]
  · rw [if_neg (mt survives.mp kept), if_neg kept, List.nil_append]

theorem survivors_pair (later : List JournalRecord) (left right : CompletedBlock)
    (uncut : ∀ newLength, JournalRecord.truncate newLength ∉ between) :
    survivors (left.asRecord :: (between ++ right.asRecord :: later)) =
      (if Survives left later then [left] else []) ++
        ((survivors between).filter (fun block => decide (Survives block later)) ++
          ((if Survives right later then [right] else []) ++ survivors later)) := by
  have behind : survivors (right.asRecord :: later) =
      (if Survives right later then [right] else []) ++ survivors later :=
    survivors_block right [] later nofun
  rw [survivors_block left between (right.asRecord :: later) uncut, survivors_append, behind]
  rfl

theorem swap_alike (before : List JournalRecord) (later : List JournalRecord)
    (left right : CompletedBlock) (uncut : ∀ newLength, JournalRecord.truncate newLength ∉ between)
    :
    Alike (before ++ left.asRecord :: (between ++ right.asRecord :: later))
      (before ++ right.asRecord :: (between ++ left.asRecord :: later)) := by
  have cuts : truncates (left.asRecord :: (between ++ right.asRecord :: later)) =
      truncates (right.asRecord :: (between ++ left.asRecord :: later)) := by
    simp [truncates, CompletedBlock.asRecord]
  constructor
  · intro total
    apply possible_behind
    · rfl
    · intro length
      rw [possible_cons, possible_cons]
      have first := possible_uncut length later right uncut
      have second := possible_uncut length later left uncut
      show Fits length left ∧ Possible length _ ↔ Fits length right ∧ Possible length _
      rw [first, second]
      exact and_left_comm
  · rw [truncates_append, truncates_append, cuts]
  · simp [identityPayloads, CompletedBlock.asRecord]
  · simp [sealedDigests, CompletedBlock.asRecord]
  · have front : ∀ block, Survives block (left.asRecord :: (between ++ right.asRecord :: later)) ↔
        Survives block (right.asRecord :: (between ++ left.asRecord :: later)) := by
      intro block
      rw [Survives, Survives, cuts]
    simp only [survivors_append before, front, survivors_pair later _ _ uncut]
    apply List.Perm.append_left
    rw [← Multiset.coe_eq_coe]
    simp only [← Multiset.coe_add]
    abel

theorem permuted_alike (permuted : Permuted left right) :
    Alike left right := by
  induction permuted with
  | refl records => exact ⟨fun _ => Iff.rfl, rfl, rfl, rfl, List.Perm.refl _⟩
  | swap before between later left right uncut =>
    exact swap_alike before later left right uncut
  | trans first second third _ _ leftAlike rightAlike =>
    exact ⟨fun total => (leftAlike.possible total).trans (rightAlike.possible total),
      leftAlike.truncates.trans rightAlike.truncates,
      leftAlike.identities.trans rightAlike.identities, leftAlike.seals.trans rightAlike.seals,
      leftAlike.survivors.trans rightAlike.survivors⟩

theorem survivors_positive
    (possible : Possible total records) : ∀ block ∈ survivors records, 0 < block.len.toNat := by
  induction records generalizing total with
  | nil => exact nofun
  | cons record later ih =>
    obtain ⟨allowed, rest⟩ := (possible_cons total record later).mp possible
    have tail := ih rest
    cases record with
    | blockComplete offset len blake3 =>
      intro block mem
      rw [survivors] at mem
      split at mem
      · rcases List.mem_cons.mp mem with rfl | old
        · exact allowed.positive
        · exact tail block old
      · exact tail block mem
    | _ => exact tail

theorem sorted_unique {left right : List CompletedBlock} (permuted : left.Perm right)
    (apart : left.Pairwise CompletedBlock.Apart) (positive : ∀ block ∈ left, 0 < block.len.toNat) :
    left.insertionSort CompletedBlock.Earlier = right.insertionSort CompletedBlock.Earlier := by
  have symmetric : Std.Symm CompletedBlock.Apart := ⟨fun _ _ disjoint => disjoint.symm⟩
  have leftSorted := List.perm_insertionSort CompletedBlock.Earlier left
  have rightSorted := List.perm_insertionSort CompletedBlock.Earlier right
  refine List.Perm.eq_of_pairwise ?_ (List.pairwise_insertionSort _ left)
    (List.pairwise_insertionSort _ right) (leftSorted.trans (permuted.trans rightSorted.symm))
  intro first second firstMember secondMember before after
  by_contra different
  have firstLeft := leftSorted.mem_iff.mp firstMember
  have secondLeft := permuted.mem_iff.mpr (rightSorted.mem_iff.mp secondMember)
  have disjoint := apart.forall firstLeft secondLeft different
  have firstWide := positive first firstLeft
  have secondWide := positive second secondLeft
  simp only [CompletedBlock.Apart, CompletedBlock.Earlier, CompletedBlock.stop,
    CompletedBlock.start] at disjoint before after
  omega

/-- `effective_state` accepts exactly the possible sequences with disjoint
survivors and returns what they describe; block records may change places between
two truncations. -/
theorem record_fold_exact (header : FileHeader) (frames : List FramedRecord) :
    (∀ state, effectiveState header frames = .ok state ↔
      Possible header.totalLength.toNat (frames.map FramedRecord.record) ∧
        (survivors (frames.map FramedRecord.record)).Pairwise CompletedBlock.Apart ∧
        state = described header.totalLength.toNat (frames.map FramedRecord.record)) ∧
      ∀ others : List FramedRecord,
        Permuted (frames.map FramedRecord.record) (others.map FramedRecord.record) →
        ∀ state, effectiveState header frames = .ok state ↔ effectiveState header others = .ok state := by
  refine ⟨effective_state_described header frames, ?_⟩
  intro others permuted state
  have alike := permuted_alike permuted
  have symmetric : ∀ {left right : CompletedBlock}, left.Apart right → right.Apart left :=
    fun disjoint => disjoint.symm
  rw [effective_state_described, effective_state_described, ← alike.possible,
    ← alike.survivors.pairwise_iff symmetric]
  refine and_congr_right fun possible => and_congr_right fun apart => ?_
  have sorted := sorted_unique alike.survivors apart (survivors_positive possible)
  rw [described, described, lengthAfter, lengthAfter, alike.truncates, alike.identities, alike.seals,
    sorted]

/-! A block behind an identity, one in front of it, and a cut that drops the former. -/

def blankDigest : Digest := List.Vector.replicate 32 0

def tenBytes : FileHeader := ⟨List.Vector.replicate 16 0, 10, 4, blankDigest⟩

def frontBlock : CompletedBlock := ⟨0, 4, blankDigest⟩
def rearBlock : CompletedBlock := ⟨4, 4, blankDigest⟩

def cutJournal (first second : CompletedBlock) : List FramedRecord :=
  [⟨0, first.asRecord⟩, ⟨1, .identityUpdate [7]⟩, ⟨2, second.asRecord⟩, ⟨3, .truncate 6⟩]

theorem record_fold_cut :
    effectiveState tenBytes (cutJournal frontBlock rearBlock) =
        .ok ⟨6, some 6, [[7]], [frontBlock], none⟩ ∧
      effectiveState tenBytes (cutJournal rearBlock frontBlock) =
        .ok ⟨6, some 6, [[7]], [frontBlock], none⟩ := by
  have accepted : effectiveState tenBytes (cutJournal frontBlock rearBlock) =
      .ok ⟨6, some 6, [[7]], [frontBlock], none⟩ := by
    decide
  have swapped : Permuted ((cutJournal frontBlock rearBlock).map FramedRecord.record)
      ((cutJournal rearBlock frontBlock).map FramedRecord.record) :=
    Permuted.swap [] [.identityUpdate [7]] [.truncate 6] frontBlock rearBlock (by simp)
  exact ⟨accepted, ((record_fold_exact tenBytes (cutJournal frontBlock rearBlock)).2
    (cutJournal rearBlock frontBlock) swapped _).mp accepted⟩

end Downpour.RecordFold
