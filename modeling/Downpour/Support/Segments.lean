import Mathlib

/-!
Runs of labelled half-open segments over the natural numbers. `Chain lo hi`
says that a list cuts `[lo, hi)` into non-empty pieces without gap or overlap;
`Reduced` says that neighbouring labels differ. `labelAt` reads a chain as a
function from position to label, and every operation below is described by
what it does to that function.
-/

namespace Segments

variable {Label : Type}

structure Segment (Label : Type) where
  start : Nat
  stop : Nat
  label : Label
  deriving DecidableEq, Repr

def Chain : Nat → Nat → List (Segment Label) → Prop
  | lo, hi, [] => lo = hi
  | lo, hi, segment :: rest =>
    segment.start = lo ∧ lo < segment.stop ∧ Chain segment.stop hi rest

def Reduced (segments : List (Segment Label)) : Prop :=
  segments.IsChain fun left right => left.label ≠ right.label

def labelAt : List (Segment Label) → Nat → Option Label
  | [], _ => none
  | segment :: rest, pos =>
    if segment.start ≤ pos ∧ pos < segment.stop then some segment.label
    else labelAt rest pos

variable {segments : List (Segment Label)} {lo hi : Nat}

theorem chain_le (chain : Chain lo hi segments) : lo ≤ hi := by
  induction segments generalizing lo with
  | nil => exact Nat.le_of_eq chain
  | cons segment rest ih =>
    have tail := ih chain.2.2
    exact Nat.le_trans (Nat.le_of_lt chain.2.1) tail

theorem chain_append (left right : List (Segment Label)) (lo hi : Nat) :
    Chain lo hi (left ++ right) ↔ ∃ middle, Chain lo middle left ∧ Chain middle hi right := by
  induction left generalizing lo with
  | nil => simp [Chain]
  | cons segment rest ih =>
    simp only [List.cons_append, Chain, ih]
    constructor
    · rintro ⟨start, positive, middle, before, after⟩
      exact ⟨middle, ⟨start, positive, before⟩, after⟩
    · rintro ⟨middle, ⟨start, positive, before⟩, after⟩
      exact ⟨start, positive, middle, before, after⟩

theorem chain_member_bounds (chain : Chain lo hi segments) {segment : Segment Label}
    (mem : segment ∈ segments) :
    lo ≤ segment.start ∧ segment.start < segment.stop ∧ segment.stop ≤ hi := by
  induction segments generalizing lo with
  | nil => simp at mem
  | cons first rest ih =>
    obtain ⟨start, positive, tail⟩ := chain
    rcases List.mem_cons.mp mem with same | later
    · subst segment
      exact ⟨Nat.le_of_eq start.symm, by omega, chain_le tail⟩
    · have bounds := ih tail later
      exact ⟨by omega, bounds.2.1, bounds.2.2⟩

theorem chain_nodup (chain : Chain lo hi segments) : segments.Nodup := by
  induction segments generalizing lo with
  | nil => exact List.nodup_nil
  | cons segment rest ih =>
    obtain ⟨_, _, tail⟩ := chain
    refine List.nodup_cons.mpr ⟨?_, ih tail⟩
    intro again
    have bounds := chain_member_bounds tail again
    omega

theorem chain_member_unique (chain : Chain lo hi segments) {left right : Segment Label}
    (first : left ∈ segments) (second : right ∈ segments) (pos : Nat)
    (inLeft : left.start ≤ pos ∧ pos < left.stop)
    (inRight : right.start ≤ pos ∧ pos < right.stop) : left = right := by
  induction segments generalizing lo with
  | nil => simp at first
  | cons segment rest ih =>
    obtain ⟨_, _, tail⟩ := chain
    rcases List.mem_cons.mp first with rfl | later
    · rcases List.mem_cons.mp second with rfl | after
      · rfl
      · have bounds := chain_member_bounds tail after
        omega
    · rcases List.mem_cons.mp second with rfl | after
      · have bounds := chain_member_bounds tail later
        omega
      · exact ih tail later after

theorem label_append (left right : List (Segment Label)) (pos : Nat) :
    labelAt (left ++ right) pos = (labelAt left pos).or (labelAt right pos) := by
  induction left with
  | nil => simp [labelAt]
  | cons segment rest ih =>
    by_cases inside : segment.start ≤ pos ∧ pos < segment.stop <;>
      simp [labelAt, inside, ih]

theorem label_outside (pos : Nat) (chain : Chain lo hi segments)
    (outside : pos < lo ∨ hi ≤ pos) :
    labelAt segments pos = none := by
  induction segments generalizing lo with
  | nil => rfl
  | cons segment rest ih =>
    obtain ⟨start, positive, tail⟩ := chain
    have extent := chain_le tail
    have missed : ¬ (segment.start ≤ pos ∧ pos < segment.stop) := by omega
    simp only [labelAt, missed, ↓reduceIte]
    exact ih tail (by omega)

theorem label_inside (chain : Chain lo hi segments) (lower : lo ≤ pos) (upper : pos < hi) :
    ∃ label, labelAt segments pos = some label := by
  induction segments generalizing lo with
  | nil =>
    have same : lo = hi := chain
    omega
  | cons segment rest ih =>
    obtain ⟨start, positive, tail⟩ := chain
    by_cases inside : segment.start ≤ pos ∧ pos < segment.stop
    · exact ⟨segment.label, by simp [labelAt, inside]⟩
    · have beyond : segment.stop ≤ pos := by omega
      obtain ⟨label, found⟩ := ih tail beyond
      exact ⟨label, by simpa [labelAt, inside] using found⟩

theorem label_found (found : labelAt segments pos = some label) :
    ∃ segment ∈ segments, (segment.start ≤ pos ∧ pos < segment.stop) ∧ segment.label = label := by
  induction segments with
  | nil => simp [labelAt] at found
  | cons segment rest ih =>
    by_cases inside : segment.start ≤ pos ∧ pos < segment.stop
    · rw [labelAt, if_pos inside] at found
      exact ⟨segment, by simp, inside, Option.some.inj found⟩
    · simp only [labelAt, inside, ↓reduceIte] at found
      obtain ⟨other, mem, holds⟩ := ih found
      exact ⟨other, List.mem_cons_of_mem _ mem, holds⟩

theorem label_member (pos : Nat) (chain : Chain lo hi segments) {segment : Segment Label}
    (mem : segment ∈ segments) (inside : segment.start ≤ pos ∧ pos < segment.stop) :
    labelAt segments pos = some segment.label := by
  induction segments generalizing lo with
  | nil => simp at mem
  | cons first rest ih =>
    obtain ⟨start, positive, tail⟩ := chain
    rcases List.mem_cons.mp mem with same | later
    · subst segment
      simp [labelAt, inside]
    · have bounds := chain_member_bounds tail later
      have missed : ¬ (first.start ≤ pos ∧ pos < first.stop) := by omega
      simpa [labelAt, missed] using ih tail later

theorem reduced_joined {pos : Nat} {label : Label} (chain : Chain lo hi segments)
    (reduced : Reduced segments) (left : labelAt segments pos = some label)
    (right : labelAt segments (pos + 1) = some label) :
    ∃ segment ∈ segments, segment.start ≤ pos ∧ pos + 1 < segment.stop ∧
      segment.label = label := by
  induction segments generalizing lo with
  | nil => simp [labelAt] at left
  | cons first rest ih =>
    obtain ⟨_, _, tail⟩ := chain
    by_cases before : first.start ≤ pos ∧ pos < first.stop
    · by_cases inside : pos + 1 < first.stop
      · rw [labelAt, if_pos before, Option.some.injEq] at left
        exact ⟨first, List.mem_cons_self, before.1, inside, left⟩
      · -- The second position opens the next segment, whose label differs.
        cases rest with
        | nil =>
          rw [labelAt, if_neg (by omega)] at right
          cases right
        | cons second others =>
          rw [labelAt, if_pos before, Option.some.injEq] at left
          rw [labelAt, if_neg (by omega), labelAt,
            if_pos (by have := tail.1; have := tail.2.1; omega), Option.some.injEq] at right
          have differ := (List.isChain_cons_cons.mp reduced).1
          exact absurd (left.trans right.symm) differ
    · rw [labelAt, if_neg before] at left
      obtain ⟨segment, mem, inside, _⟩ := label_found left
      have bounds := chain_member_bounds tail mem
      rw [labelAt, if_neg (by omega)] at right
      obtain ⟨joined, found, shape⟩ := ih tail (List.IsChain.tail reduced) left right
      exact ⟨joined, List.mem_cons_of_mem _ found, shape⟩

theorem reduced_head_le {left right : Segment Label} {lefts rights : List (Segment Label)}
    (leftChain : Chain lo hi (left :: lefts)) (reduced : Reduced (left :: lefts))
    (rightChain : Chain lo hi (right :: rights))
    (same : labelAt (left :: lefts) = labelAt (right :: rights)) : right.stop ≤ left.stop := by
  -- Of two reduced chains that read the same, neither begins with a longer segment.
  by_contra longer
  have leftStart := leftChain.1
  have leftPositive := leftChain.2.1
  have rightStart := rightChain.1
  have here : ∀ pos, lo ≤ pos → pos < right.stop →
      labelAt (left :: lefts) pos = some right.label := fun pos lower upper => by
    rw [same, labelAt, if_pos ⟨by omega, upper⟩]
  obtain ⟨joined, mem, before, behind, _⟩ := reduced_joined leftChain reduced
    (here (left.stop - 1) (by omega) (by omega)) (here (left.stop - 1 + 1) (by omega) (by omega))
  have one := chain_member_unique leftChain mem List.mem_cons_self (left.stop - 1)
    ⟨before, by omega⟩ ⟨by omega, by omega⟩
  rw [one] at behind
  omega

theorem reduced_unique {lefts rights : List (Segment Label)} (leftChain : Chain lo hi lefts)
    (leftReduced : Reduced lefts) (rightChain : Chain lo hi rights) (rightReduced : Reduced rights)
    (same : labelAt lefts = labelAt rights) : lefts = rights := by
  induction lefts generalizing lo rights with
  | nil =>
    cases rights with
    | nil => rfl
    | cons right rest =>
      have before := chain_le rightChain.2.2
      have positive := rightChain.2.1
      have empty : lo = hi := leftChain
      omega
  | cons left lefts ih =>
    cases rights with
    | nil =>
      have before := chain_le leftChain.2.2
      have positive := leftChain.2.1
      have empty : lo = hi := rightChain
      omega
    | cons right rights =>
      have stops := Nat.le_antisymm (reduced_head_le rightChain rightReduced leftChain same.symm)
        (reduced_head_le leftChain leftReduced rightChain same)
      obtain ⟨leftStart, leftPositive, leftTail⟩ := leftChain
      obtain ⟨rightStart, rightPositive, rightTail⟩ := rightChain
      have labels := congrFun same lo
      rw [labelAt, labelAt, if_pos (by omega), if_pos (by omega), Option.some.injEq] at labels
      have heads : left = right := by
        cases left
        cases right
        simp_all
      subst heads
      congr 1
      refine ih leftTail leftReduced.tail rightTail rightReduced.tail (funext fun pos => ?_)
      by_cases inside : left.start ≤ pos ∧ pos < left.stop
      · rw [label_outside pos leftTail (Or.inl inside.2),
          label_outside pos rightTail (Or.inl inside.2)]
      · have reads := congrFun same pos
        rwa [labelAt, labelAt, if_neg inside, if_neg inside] at reads

theorem label_count_between [DecidableEq Label] (lower upper : Nat) (label : Label)
    (chain : Chain lo hi segments) :
    ((Finset.Ico lo hi).filter fun pos => labelAt segments pos = some label ∧
      lower ≤ pos ∧ pos < upper).card =
      ((segments.filter fun segment => decide (segment.label = label)).map
        fun segment => min segment.stop upper - max segment.start lower).sum := by
  induction segments generalizing lo with
  | nil => simp [labelAt]
  | cons first rest ih =>
    obtain ⟨start, positive, tail⟩ := chain
    have extent := chain_le tail
    have later : (Finset.Ico first.stop hi).filter
        (fun pos => labelAt (first :: rest) pos = some label ∧
          lower ≤ pos ∧ pos < upper) =
        (Finset.Ico first.stop hi).filter fun pos => labelAt rest pos = some label ∧
          lower ≤ pos ∧ pos < upper := by
      apply Finset.filter_congr
      intro pos inside
      rw [labelAt, if_neg (by have := (Finset.mem_Ico.mp inside).1; omega)]
    have here : ((Finset.Ico lo first.stop).filter
        fun pos => labelAt (first :: rest) pos = some label ∧
          lower ≤ pos ∧ pos < upper).card =
        if first.label = label then min first.stop upper - max first.start lower else 0 := by
      have read : ∀ pos ∈ Finset.Ico lo first.stop,
          labelAt (first :: rest) pos = some first.label := by
        intro pos inside
        rw [labelAt, if_pos (by have := Finset.mem_Ico.mp inside; omega)]
      by_cases same : first.label = label
      · have clipped : (Finset.Ico lo first.stop).filter
            (fun pos => labelAt (first :: rest) pos = some label ∧
              lower ≤ pos ∧ pos < upper) =
            Finset.Ico (max first.start lower) (min first.stop upper) := by
          ext pos
          simp only [Finset.mem_filter, Finset.mem_Ico, max_le_iff, lt_min_iff]
          constructor
          · rintro ⟨inside, _, clip⟩
            omega
          · rintro ⟨below, above⟩
            have inside : lo ≤ pos ∧ pos < first.stop := by omega
            refine ⟨inside, ?_, by omega⟩
            rw [read pos (Finset.mem_Ico.mpr inside), same]
        rw [if_pos same, clipped, Nat.card_Ico]
      · rw [if_neg same, Finset.filter_false_of_mem (by
          rintro pos inside ⟨found, _⟩
          rw [read pos inside, Option.some.injEq] at found
          exact same found), Finset.card_empty]
    rw [← Finset.Ico_union_Ico_eq_Ico (Nat.le_of_lt positive) extent, Finset.filter_union,
      Finset.card_union_of_disjoint (Finset.disjoint_filter_filter
        (Finset.Ico_disjoint_Ico_consecutive lo first.stop hi)), here, later, ih tail]
    by_cases same : first.label = label <;> simp [same]

theorem label_count [DecidableEq Label] (label : Label) (chain : Chain lo hi segments) :
    ((Finset.Ico lo hi).filter fun pos => labelAt segments pos = some label).card =
      ((segments.filter fun segment => decide (segment.label = label)).map
        fun segment => segment.stop - segment.start).sum := by
  have between := label_count_between lo hi label chain
  have whole : ∀ pos ∈ Finset.Ico lo hi, (labelAt segments pos = some label ∧
      lo ≤ pos ∧ pos < hi ↔ labelAt segments pos = some label) := fun pos inside =>
    and_iff_left (Finset.mem_Ico.mp inside)
  rw [Finset.filter_congr whole] at between
  rw [between]
  congr 1
  apply List.map_congr_left
  intro segment mem
  have bounds := chain_member_bounds chain (List.mem_filter.mp mem).1
  omega

section Building
variable [DecidableEq Label]

def pushMerged (segments : List (Segment Label)) (segment : Segment Label) :
    List (Segment Label) :=
  match segments.getLast? with
  | some previous =>
    if previous.stop = segment.start ∧ previous.label = segment.label then
      segments.dropLast ++ [{ previous with stop := segment.stop }]
    else segments ++ [segment]
  | none => segments ++ [segment]

theorem push_cases (segments : List (Segment Label)) (segment : Segment Label) :
    (∃ before previous, segments = before ++ [previous] ∧
      previous.stop = segment.start ∧ previous.label = segment.label ∧
      pushMerged segments segment = before ++ [{ previous with stop := segment.stop }]) ∨
    (pushMerged segments segment = segments ++ [segment] ∧
      ∀ before previous, segments = before ++ [previous] →
        ¬ (previous.stop = segment.start ∧ previous.label = segment.label)) := by
  rcases List.eq_nil_or_concat segments with empty | ⟨before, previous, split⟩
  · subst segments
    exact Or.inr ⟨by simp [pushMerged], by simp⟩
  · subst segments
    by_cases same : previous.stop = segment.start ∧ previous.label = segment.label
    · exact Or.inl ⟨before, previous, by simp, same.1, same.2, by simp [pushMerged, same]⟩
    · refine Or.inr ⟨by simp [pushMerged, same], ?_⟩
      intro other last equal
      have lastEqual : previous = last := by
        have := congrArg List.getLast? equal
        simpa using this
      rwa [← lastEqual]

variable {segments : List (Segment Label)} {lo : Nat}

theorem push_chain (segment : Segment Label) (chain : Chain lo segment.start segments)
    (positive : segment.start < segment.stop) :
    Chain lo segment.stop (pushMerged segments segment) := by
  rcases push_cases segments segment with
    ⟨before, previous, split, joined, _, pushed⟩ | ⟨pushed, _⟩
  · rw [split, chain_append] at chain
    obtain ⟨middle, front, start, extent, last⟩ := chain
    rw [pushed, chain_append]
    exact ⟨middle, front, start, by simp only; omega, rfl⟩
  · rw [pushed, chain_append]
    exact ⟨segment.start, chain, rfl, positive, rfl⟩

theorem push_reduced {segment : Segment Label} (chain : Chain lo segment.start segments)
    (reduced : Reduced segments) :
    Reduced (pushMerged segments segment) := by
  unfold Reduced at reduced ⊢
  rcases push_cases segments segment with
    ⟨before, previous, split, _, _, pushed⟩ | ⟨pushed, fresh⟩
  · subst split
    rw [pushed]
    simp only [List.isChain_append, List.head?_cons, Option.mem_def, Option.some.injEq] at reduced ⊢
    refine ⟨reduced.1, List.isChain_singleton _, ?_⟩
    rintro last atEnd next rfl
    exact reduced.2.2 last atEnd previous rfl
  · rw [pushed, List.isChain_append]
    refine ⟨reduced, List.isChain_singleton _, ?_⟩
    intro last atEnd next atStart
    obtain rfl : segment = next := by simpa using atStart
    obtain ⟨before, split⟩ := List.getLast?_eq_some_iff.mp atEnd
    rw [split, chain_append] at chain
    obtain ⟨middle, _, _, _, stop⟩ := chain
    exact fun same => fresh before last split ⟨stop, same⟩

theorem push_label {segment : Segment Label} (chain : Chain lo segment.start segments)
    (positive : segment.start < segment.stop) (pos : Nat) :
    labelAt (pushMerged segments segment) pos =
      if segment.start ≤ pos ∧ pos < segment.stop then some segment.label
      else labelAt segments pos := by
  rcases push_cases segments segment with
    ⟨before, previous, split, joined, same, pushed⟩ | ⟨pushed, _⟩
  · subst split
    rw [chain_append] at chain
    obtain ⟨middle, front, start, extent, last⟩ := chain
    rw [pushed, label_append, label_append]
    have frontExtent := chain_le front
    by_cases inside : segment.start ≤ pos ∧ pos < segment.stop
    · have frontMissed : labelAt before pos = none := by
        apply label_outside pos front
        omega
      have covered : previous.start ≤ pos ∧ pos < segment.stop := by
        omega
      rw [frontMissed, if_pos inside]
      simp only [labelAt, covered, Option.none_or, same, and_self, ↓reduceIte]
    · have sameSide : (previous.start ≤ pos ∧ pos < segment.stop) ↔
          (previous.start ≤ pos ∧ pos < previous.stop) := by omega
      simp only [labelAt, inside, sameSide, ↓reduceIte]
  · rw [pushed, label_append]
    by_cases inside : segment.start ≤ pos ∧ pos < segment.stop
    · have missed := label_outside pos chain (Or.inr inside.1)
      simp [missed, labelAt, inside]
    · simp [labelAt, inside]

/-- Where the segments with the given label end that stand in front. -/
def prefixEnd (hi : Nat) (label : Label) (segments : List (Segment Label)) : Nat :=
  (segments.find? fun segment => decide (segment.label ≠ label)).elim hi Segment.start

theorem prefix_label (lo : Nat) (chain : Chain lo hi segments) (lower : lo ≤ pos)
    (upper : pos < prefixEnd hi label segments) : labelAt segments pos = some label := by
  induction segments generalizing lo with
  | nil =>
    have same : lo = hi := chain
    simp only [prefixEnd, List.find?_nil, Option.elim_none] at upper
    omega
  | cons segment rest ih =>
    obtain ⟨begins, positive, tail⟩ := chain
    by_cases hit : segment.label = label
    · have shape : prefixEnd hi label (segment :: rest) = prefixEnd hi label rest := by
        simp [prefixEnd, hit]
      rw [shape] at upper
      by_cases inside : pos < segment.stop
      · simp [labelAt, hit, inside, show segment.start ≤ pos by omega]
      · have missed : ¬ (segment.start ≤ pos ∧ pos < segment.stop) := by omega
        simp only [labelAt, if_neg missed]
        exact ih segment.stop tail (by omega) upper
    · have shape : prefixEnd hi label (segment :: rest) = segment.start := by
        simp [prefixEnd, hit]
      omega

/-- A list built by pushes: it covers `[lo, hi)`, neighbours differ, and it
reads as the function `view`. -/
structure Built (lo hi : Nat) (segments : List (Segment Label)) (view : Nat → Option Label) :
    Prop where
  chain : Chain lo hi segments
  reduced : Reduced segments
  reads : ∀ pos, labelAt segments pos = view pos

omit [DecidableEq Label] in
theorem built_empty (lo : Nat) : Built lo lo ([] : List (Segment Label)) fun _ => none :=
  ⟨rfl, List.isChain_nil, fun _ => rfl⟩

variable {lo hi first : Nat} {segments next : List (Segment Label)} {view : Nat → Option Label}

theorem built_push (segment : Segment Label) (built : Built lo segment.start segments view)
    (positive : segment.start < segment.stop) :
    Built lo segment.stop (pushMerged segments segment) fun pos =>
      if segment.start ≤ pos ∧ pos < segment.stop then some segment.label
      else view pos := by
  refine ⟨push_chain segment built.chain positive, push_reduced built.chain built.reduced, ?_⟩
  intro pos
  rw [push_label built.chain positive, built.reads]

def normalise (segments : List (Segment Label)) : List (Segment Label) :=
  segments.foldl pushMerged []

theorem built_fold_push (built : Built lo middle next view) (chain : Chain middle hi segments) :
    Built lo hi (segments.foldl pushMerged next) fun pos =>
      (labelAt segments pos).or (view pos) := by
  induction segments generalizing next middle view with
  | nil =>
    have same : middle = hi := chain
    subst hi
    simpa [labelAt] using built
  | cons segment rest ih =>
    obtain ⟨start, positive, tail⟩ := chain
    subst middle
    have pushed := ih (built_push segment built positive) tail
    refine ⟨pushed.chain, pushed.reduced, fun pos => ?_⟩
    rw [List.foldl_cons, pushed.reads]
    by_cases inside : segment.start ≤ pos ∧ pos < segment.stop
    · have missed := label_outside pos tail (Or.inl inside.2)
      simp [labelAt, inside, missed]
    · simp [labelAt, inside]

theorem normalise_built (chain : Chain lo hi segments) :
    Built lo hi (normalise segments) (labelAt segments) := by
  have built := built_fold_push (built_empty lo) chain
  exact ⟨built.chain, built.reduced, fun pos => by simpa [normalise] using built.reads pos⟩

def replaceStep (lo hi : Nat) (replacement : Label) (next : List (Segment Label))
    (segment : Segment Label) : List (Segment Label) :=
  if segment.stop ≤ lo ∨ hi ≤ segment.start then pushMerged next segment else
    let next := if segment.start < lo then
      pushMerged next ⟨segment.start, lo, segment.label⟩ else next
    let next := pushMerged next ⟨max segment.start lo, min segment.stop hi, replacement⟩
    if hi < segment.stop then pushMerged next ⟨hi, segment.stop, segment.label⟩ else next

def replaceRange (segments : List (Segment Label)) (lo hi : Nat) (replacement : Label) :
    List (Segment Label) :=
  segments.foldl (replaceStep lo hi replacement) []

theorem replace_step_built (replacement : Label) {segment : Segment Label} (ordered : lo < hi)
    (built : Built first segment.start next view) (positive : segment.start < segment.stop) :
    Built first segment.stop (replaceStep lo hi replacement next segment) fun pos =>
      if segment.start ≤ pos ∧ pos < segment.stop then
        some (if lo ≤ pos ∧ pos < hi then replacement else segment.label)
      else view pos := by
  -- One loop iteration appends exactly the positions of its segment, relabelled inside `[lo, hi)`.
  unfold replaceStep
  split
  next apart =>
    have pushed := built_push segment built positive
    refine ⟨pushed.chain, pushed.reduced, fun pos => ?_⟩
    rw [pushed.reads]
    by_cases inside : segment.start ≤ pos ∧ pos < segment.stop
    · have outside : ¬ (lo ≤ pos ∧ pos < hi) := by
        omega
      simp [inside, outside]
    · simp [inside]
  next meets =>
    -- The three pieces of a segment that meets the range: left rest, middle, right rest.
    have left : Built first (max segment.start lo)
        (if segment.start < lo then pushMerged next ⟨segment.start, lo, segment.label⟩ else next)
        fun pos => if segment.start ≤ pos ∧ pos < lo then some segment.label
          else view pos := by
      split
      next cut =>
        have pushed := built_push ⟨segment.start, lo, segment.label⟩ built cut
        have edge : max segment.start lo = lo := by omega
        rw [edge]
        exact pushed
      next whole =>
        have edge : max segment.start lo = segment.start := by omega
        rw [edge]
        refine ⟨built.chain, built.reduced, fun pos => ?_⟩
        have none : ¬ (segment.start ≤ pos ∧ pos < lo) := by omega
        simp [none, built.reads]
    have middle := built_push
      ⟨max segment.start lo, min segment.stop hi, replacement⟩ left (by simp only; omega)
    dsimp only at middle ⊢
    split
    next cut =>
      have edge : min segment.stop hi = hi := by omega
      simp only [edge] at middle ⊢
      have right := built_push ⟨hi, segment.stop, segment.label⟩ middle cut
      refine ⟨right.chain, right.reduced, fun pos => ?_⟩
      rw [right.reads]
      dsimp only
      split_ifs <;> first | rfl | omega
    next whole =>
      have edge : min segment.stop hi = segment.stop := by omega
      simp only [edge] at middle ⊢
      refine ⟨middle.chain, middle.reduced, fun pos => ?_⟩
      rw [middle.reads]
      split_ifs <;> first | rfl | omega

theorem replace_fold_built (replacement : Label) (ordered : lo < hi)
    (built : Built first middle next view) (chain : Chain middle last segments) :
    Built first last (segments.foldl (replaceStep lo hi replacement) next) fun pos =>
      if middle ≤ pos ∧ pos < last then
        if lo ≤ pos ∧ pos < hi then some replacement else labelAt segments pos else view pos := by
  induction segments generalizing next middle view with
  | nil =>
    have same : middle = last := chain
    subst last
    refine ⟨built.chain, built.reduced, fun pos => ?_⟩
    have none : ¬ (middle ≤ pos ∧ pos < middle) := by omega
    simp only [List.foldl_nil, none, ↓reduceIte]
    exact built.reads pos
  | cons segment rest ih =>
    obtain ⟨start, positive, tail⟩ := chain
    subst middle
    have stepped := replace_step_built replacement ordered built positive
    have folded := ih stepped tail
    have extent := chain_le tail
    refine ⟨folded.chain, folded.reduced, fun pos => ?_⟩
    rw [List.foldl_cons, folded.reads]
    simp only [labelAt]
    split_ifs <;> first | rfl | omega

theorem replace_built (replacement : Label) (ordered : lo < hi)
    (lower : first ≤ lo) (upper : hi ≤ last) (chain : Chain first last segments) :
    Built first last (replaceRange segments lo hi replacement) fun pos =>
      if lo ≤ pos ∧ pos < hi then some replacement else labelAt segments pos := by
  have folded := replace_fold_built replacement ordered
    (built_empty first) chain
  refine ⟨folded.chain, folded.reduced, fun pos => ?_⟩
  rw [replaceRange, folded.reads]
  by_cases covered : first ≤ pos ∧ pos < last
  · simp [covered]
  · have missed := label_outside pos chain (by omega)
    have outside : ¬ (lo ≤ pos ∧ pos < hi) := by omega
    simp [covered, outside, missed]

end Building

/-! Maximal runs of one label, as spans with a gap between neighbours. -/

@[ext]
structure Span where
  start : Nat
  stop : Nat
  deriving DecidableEq, Repr

def Covered (spans : List Span) (pos : Nat) : Prop :=
  ∃ span ∈ spans, span.start ≤ pos ∧ pos < span.stop

structure Separated (spans : List Span) : Prop where
  positive : ∀ span ∈ spans, span.start < span.stop
  gaps : spans.Pairwise fun left right => left.stop < right.start

theorem separated_nil : Separated [] := ⟨by simp, List.Pairwise.nil⟩

theorem separated_tail (separated : Separated (span :: rest)) :
    Separated rest :=
  ⟨fun other mem => separated.positive other (List.mem_cons_of_mem span mem),
    (List.pairwise_cons.mp separated.gaps).2⟩

theorem covered_cons (span : Span) (rest : List Span) (pos : Nat) :
    Covered (span :: rest) pos ↔
      (span.start ≤ pos ∧ pos < span.stop) ∨ Covered rest pos := by
  simp [Covered]

theorem covered_concat (front : List Span) (span : Span) (pos : Nat) :
    Covered (front ++ [span]) pos ↔
      Covered front pos ∨ (span.start ≤ pos ∧ pos < span.stop) := by
  simp [Covered, or_and_right, exists_or]

theorem separated_concat (front : List Span) (span : Span) :
    Separated (front ++ [span]) ↔
      Separated front ∧ span.start < span.stop ∧ ∀ other ∈ front, other.stop < span.start := by
  constructor
  · rintro ⟨positive, gaps⟩
    obtain ⟨frontGaps, _, crossing⟩ := List.pairwise_append.mp gaps
    exact ⟨⟨fun other mem => positive other (List.mem_append_left _ mem), frontGaps⟩,
      positive span (by simp), fun other mem => crossing other mem span (by simp)⟩
  · rintro ⟨front, positive, crossing⟩
    constructor
    · intro other mem
      rcases List.mem_append.mp mem with old | new
      · exact front.positive other old
      · rw [List.mem_singleton.mp new]
        exact positive
    · refine List.pairwise_append.mpr ⟨front.gaps, List.pairwise_singleton _ _, ?_⟩
      intro other mem last same
      rw [List.mem_singleton.mp same]
      exact crossing other mem

theorem covered_behind (separated : Separated (span :: rest))
    (covered : Covered rest pos) : span.stop < pos := by
  obtain ⟨other, mem, lower, _⟩ := covered
  have gap := (List.pairwise_cons.mp separated.gaps).1 other mem
  exact Nat.lt_of_lt_of_le gap lower

theorem first_span_bounds
    (leftSeparated : Separated (left :: lefts)) (rightSeparated : Separated (right :: rights))
    (same : ∀ pos, Covered (left :: lefts) pos ↔ Covered (right :: rights) pos) :
    right.start ≤ left.start ∧ right.stop ≤ left.stop := by
  -- The first span of a separated list is no longer than the first span of another list that
  -- covers the same positions, nor does it start earlier.
  have leftPositive := leftSeparated.positive left List.mem_cons_self
  have rightPositive := rightSeparated.positive right List.mem_cons_self
  have startCovered := (same left.start).mp ((covered_cons _ _ _).mpr (Or.inl ⟨le_rfl, leftPositive⟩))
  have ordered : right.start ≤ left.start := by
    rcases (covered_cons _ _ _).mp startCovered with inside | later
    · exact inside.1
    · have behind := covered_behind rightSeparated later
      omega
  refine ⟨ordered, ?_⟩
  by_contra longer
  -- The position just behind `left` is a gap on the left and inside `right`.
  have gapCovered := (same left.stop).mpr
    ((covered_cons _ _ _).mpr (Or.inl ⟨by omega, by omega⟩))
  rcases (covered_cons _ _ _).mp gapCovered with inside | later
  · omega
  · have behind := covered_behind leftSeparated later
    omega

theorem covered_ncard (positive : ∀ span ∈ spans, span.start < span.stop)
    (ordered : spans.Pairwise fun left right => left.stop ≤ right.start) :
    {pos | Covered spans pos}.Finite ∧ Set.ncard {pos | Covered spans pos} =
      (spans.map fun span => span.stop - span.start).sum := by
  induction spans with
  | nil => simp [Covered]
  | cons span rest ih =>
    obtain ⟨behind, restOrdered⟩ := List.pairwise_cons.mp ordered
    obtain ⟨finite, counted⟩ := ih
      (fun other mem => positive other (List.mem_cons_of_mem _ mem)) restOrdered
    have split : {pos | Covered (span :: rest) pos} =
        Set.Ico span.start span.stop ∪ {pos | Covered rest pos} := by
      ext pos
      exact covered_cons span rest pos
    have apart : Disjoint (Set.Ico span.start span.stop) {pos | Covered rest pos} := by
      rw [Set.disjoint_left]
      rintro pos ⟨_, upper⟩ ⟨other, mem, lower, _⟩
      have := behind other mem
      omega
    rw [split]
    refine ⟨(Set.finite_Ico _ _).union finite, ?_⟩
    rw [Set.ncard_union_eq apart (Set.finite_Ico _ _) finite, counted, Set.ncard_Ico_nat,
      List.map_cons, List.sum_cons]

theorem separated_unique (rights : List Span) (leftSeparated : Separated lefts)
    (rightSeparated : Separated rights)
    (same : ∀ pos, Covered lefts pos ↔ Covered rights pos) : lefts = rights := by
  induction lefts generalizing rights with
  | nil =>
    cases rights with
    | nil => rfl
    | cons right rest =>
      have positive := rightSeparated.positive right List.mem_cons_self
      have covered := (same right.start).mpr
        ((covered_cons _ _ _).mpr (Or.inl ⟨le_rfl, positive⟩))
      simp [Covered] at covered
  | cons left lefts ih =>
    cases rights with
    | nil =>
      have positive := leftSeparated.positive left List.mem_cons_self
      have covered := (same left.start).mp
        ((covered_cons _ _ _).mpr (Or.inl ⟨le_rfl, positive⟩))
      simp [Covered] at covered
    | cons right rights =>
      have forward := first_span_bounds leftSeparated rightSeparated same
      have backward := first_span_bounds rightSeparated leftSeparated
        fun pos => (same pos).symm
      have first : left = right :=
        Span.ext (Nat.le_antisymm backward.1 forward.1) (Nat.le_antisymm backward.2 forward.2)
      subst right
      congr 1
      apply ih rights (separated_tail leftSeparated) (separated_tail rightSeparated)
      intro pos
      have whole := same pos
      rw [covered_cons, covered_cons] at whole
      constructor
      · intro covered
        have behind := covered_behind leftSeparated covered
        rcases whole.mp (Or.inr covered) with inside | later
        · omega
        · exact later
      · intro covered
        have behind := covered_behind rightSeparated covered
        rcases whole.mpr (Or.inr covered) with inside | later
        · omega
        · exact later

section Runs
variable [DecidableEq Label]

def runsOf (label : Label) (segments : List (Segment Label)) : List Span :=
  (segments.filter fun segment => decide (segment.label = label)).map fun segment =>
    ⟨segment.start, segment.stop⟩

variable {segments : List (Segment Label)} {lo hi : Nat}

theorem runs_covered (label : Label) (chain : Chain lo hi segments) (pos : Nat) :
    Covered (runsOf label segments) pos ↔ labelAt segments pos = some label := by
  simp only [Covered, runsOf, List.mem_map, List.mem_filter, decide_eq_true_eq]
  constructor
  · rintro ⟨_, ⟨segment, ⟨mem, rfl⟩, rfl⟩, inside⟩
    exact label_member pos chain mem inside
  · intro found
    obtain ⟨segment, mem, inside, same⟩ := label_found found
    exact ⟨_, ⟨segment, ⟨mem, same⟩, rfl⟩, inside⟩

theorem runs_inside (chain : Chain lo hi segments) (mem : span ∈ runsOf label segments) :
    span.stop ≤ hi := by
  simp only [runsOf, List.mem_map, List.mem_filter] at mem
  obtain ⟨segment, ⟨held, _⟩, rfl⟩ := mem
  exact (chain_member_bounds chain held).2.2

theorem runs_separated (label : Label) (chain : Chain lo hi segments) (reduced : Reduced segments) :
    Separated (runsOf label segments) := by
  induction segments generalizing lo with
  | nil => exact separated_nil
  | cons segment rest ih =>
    obtain ⟨start, positive, tail⟩ := chain
    have later := ih tail reduced.tail
    by_cases hit : segment.label = label
    · have shape : runsOf label (segment :: rest) =
          ⟨segment.start, segment.stop⟩ :: runsOf label rest := by
        simp [runsOf, hit]
      rw [shape]
      constructor
      · intro span mem
        rcases List.mem_cons.mp mem with same | old
        · rw [same]
          exact start ▸ positive
        · exact later.positive span old
      · refine List.Pairwise.cons ?_ later.gaps
        intro span mem
        -- The neighbour has another label, so the next run starts behind it.
        cases rest with
        | nil => simp [runsOf] at mem
        | cons second others =>
          have different := (List.isChain_cons_cons.mp reduced).1
          have skipped : runsOf label (second :: others) = runsOf label others := by
            have missed : second.label ≠ label := by
              intro same
              exact different (hit.trans same.symm)
            simp [runsOf, missed]
          rw [skipped] at mem
          simp only [runsOf, List.mem_map, List.mem_filter] at mem
          obtain ⟨found, ⟨held, _⟩, rfl⟩ := mem
          have bounds := chain_member_bounds tail.2.2 held
          exact Nat.lt_of_lt_of_le tail.2.1 bounds.1
    · have shape : runsOf label (segment :: rest) = runsOf label rest := by
        simp [runsOf, hit]
      rw [shape]
      exact later

end Runs

end Segments
