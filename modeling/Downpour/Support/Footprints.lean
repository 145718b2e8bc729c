import Mathlib

/-!
Steps that run one after another over a shared state. A state is looked at cell by
cell, and a step reads and changes only the cells of its footprint. Steps with disjoint
footprints do not see each other: each of them does what it would have done alone.
-/

namespace Downpour.Footprints
variable {State Cell Value Result Index : Type}

/-- From every state that looks like `start` on the footprint, the step does there what it
does from `start`, and nothing elsewhere. -/
structure LocalAt (view : State → Cell → Value) (start : State) (footprint : Set Cell)
    (step : State → Result × State) : Prop where
  result : ∀ state, (∀ cell ∈ footprint, view state cell = view start cell) →
    (step state).1 = (step start).1
  inside : ∀ state, (∀ cell ∈ footprint, view state cell = view start cell) →
    ∀ cell ∈ footprint, view (step state).2 cell = view (step start).2 cell
  outside : ∀ state, (∀ cell ∈ footprint, view state cell = view start cell) →
    ∀ cell ∉ footprint, view (step state).2 cell = view state cell

def runEach (step : Index → State → Result × State) : State → List Index → List (Index × Result) × State
  | state, [] => ([], state)
  | state, index :: rest =>
    let later := runEach step (step index state).2 rest
    ((index, (step index state).1) :: later.1, later.2)

/-- A run in which every step did what it does alone from `start`. -/
structure Isolated (view : State → Cell → Value) (footprint : Index → Set Cell)
    (step : Index → State → Result × State) (start state : State) (indices : List Index)
    (run : List (Index × Result) × State) : Prop where
  results : run.1 = indices.map fun index => (index, (step index start).1)
  inside : ∀ index ∈ indices, ∀ cell ∈ footprint index,
    view run.2 cell = view (step index start).2 cell
  outside : ∀ cell, (∀ index ∈ indices, cell ∉ footprint index) →
    view run.2 cell = view state cell

-- The steps still to come find their footprints as they were at the start.
theorem run_from_isolated {view : State → Cell → Value} {footprint : Index → Set Cell}
    {step : Index → State → Result × State} {start : State} (state : State) {indices : List Index}
    (disjoint : indices.Pairwise fun index later => Disjoint (footprint index) (footprint later))
    (locals : ∀ index ∈ indices, LocalAt view start (footprint index) (step index))
    (untouched : ∀ index ∈ indices, ∀ cell ∈ footprint index, view state cell = view start cell) :
    Isolated view footprint step start state indices (runEach step state indices) := by
  induction indices generalizing state with
  | nil => exact ⟨rfl, by simp, fun _ _ => rfl⟩
  | cons index rest ih =>
    obtain ⟨apart, later⟩ := List.pairwise_cons.mp disjoint
    have here := locals index List.mem_cons_self
    have found := untouched index List.mem_cons_self
    have beyond : ∀ other ∈ rest, ∀ cell ∈ footprint other, cell ∉ footprint index :=
      fun other mem cell inside mine => Set.disjoint_left.mp (apart other mem) mine inside
    have tail := ih (step index state).2 later
      (fun other mem => locals other (List.mem_cons_of_mem _ mem))
      (fun other mem cell inside => by
        rw [here.outside state found cell (beyond other mem cell inside)]
        exact untouched other (List.mem_cons_of_mem _ mem) cell inside)
    refine ⟨?_, ?_, ?_⟩
    · simp only [runEach, List.map_cons, tail.results, here.result state found]
    · intro other mem cell inside
      rcases List.mem_cons.mp mem with rfl | behind
      · have mine : ∀ next ∈ rest, cell ∉ footprint next := fun next follows theirs =>
          beyond next follows cell theirs inside
        exact (tail.outside cell mine).trans (here.inside state found cell inside)
      · exact tail.inside other behind cell inside
    · intro cell avoided
      have mine := avoided index List.mem_cons_self
      exact (tail.outside cell fun other mem =>
        avoided other (List.mem_cons_of_mem _ mem)).trans (here.outside state found cell mine)

theorem run_each_isolated (view : State → Cell → Value) (footprint : Index → Set Cell)
    (step : Index → State → Result × State) (start : State) (indices : List Index)
    (disjoint : indices.Pairwise fun index later => Disjoint (footprint index) (footprint later))
    (locals : ∀ index ∈ indices, LocalAt view start (footprint index) (step index)) :
    Isolated view footprint step start start indices (runEach step start indices) :=
  run_from_isolated start disjoint locals fun _ _ _ _ => rfl

end Downpour.Footprints
