import Mathlib

/-!
A tally: a list of finite sets of which no two share an element and which together
hold exactly the elements counted so far. The sizes of the sets then add up to the
number of elements.
-/

namespace Downpour.Tally

variable {Element : Type}

structure Tallies (sets : List (Finset Element)) (counted : Element → Prop) : Prop where
  disjoint : sets.Pairwise Disjoint
  covers : ∀ element, (∃ set ∈ sets, element ∈ set) ↔ counted element

theorem tallies_nil {counted : Element → Prop} (none : ∀ element, ¬ counted element) :
    Tallies [] counted :=
  ⟨List.Pairwise.nil, fun element => iff_of_false (by simp) (none element)⟩

variable {sets : List (Finset Element)}

theorem tallies_congr
    (same : ∀ element, now element ↔ counted element) (tallies : Tallies sets counted) :
    Tallies sets now :=
  ⟨tallies.disjoint, fun element => (tallies.covers element).trans (same element).symm⟩

theorem tallies_append (tallies : Tallies sets counted) (apart : added.Pairwise Disjoint)
    (fresh : ∀ set ∈ added, ∀ element ∈ set, ¬ counted element)
    (grown : ∀ element, now element ↔ counted element ∨ ∃ set ∈ added, element ∈ set) :
    Tallies (sets ++ added) now := by
  constructor
  · refine List.pairwise_append.mpr ⟨tallies.disjoint, apart, ?_⟩
    intro old mem new found
    rw [Finset.disjoint_left]
    intro element inside shared
    exact fresh new found element shared ((tallies.covers element).mp ⟨old, mem, inside⟩)
  · intro element
    rw [grown, ← tallies.covers]
    simp only [List.mem_append, or_and_right, exists_or]

theorem tallies_sum [DecidableEq Element] {whole : Finset Element}
    (tallies : Tallies sets (· ∈ whole)) : (sets.map Finset.card).sum = whole.card := by
  induction sets generalizing whole with
  | nil =>
    have empty : whole = ∅ := by
      rw [Finset.eq_empty_iff_forall_notMem]
      intro element inside
      obtain ⟨_, mem, _⟩ := (tallies.covers element).mpr inside
      cases mem
    simp [empty]
  | cons first rest ih =>
    obtain ⟨apart, later⟩ := List.pairwise_cons.mp tallies.disjoint
    have part : first ⊆ whole := fun element inside =>
      (tallies.covers element).mp ⟨first, List.mem_cons_self, inside⟩
    -- What the other sets hold is what the first set leaves over.
    have remaining : Tallies rest (· ∈ whole \ first) := by
      refine ⟨later, fun element => ?_⟩
      rw [Finset.mem_sdiff]
      constructor
      · rintro ⟨set, mem, inside⟩
        refine ⟨(tallies.covers element).mp ⟨set, List.mem_cons_of_mem _ mem, inside⟩, ?_⟩
        exact fun shared => Finset.disjoint_left.mp (apart set mem) shared inside
      · rintro ⟨inside, outside⟩
        obtain ⟨set, mem, found⟩ := (tallies.covers element).mpr inside
        rcases List.mem_cons.mp mem with rfl | other
        · exact absurd found outside
        · exact ⟨set, other, found⟩
    rw [List.map_cons, List.sum_cons, ih remaining, Finset.card_sdiff_of_subset part]
    have bound := Finset.card_le_card part
    omega

end Downpour.Tally
