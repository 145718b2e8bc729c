import Downpour.SharedDirectory

/-!
What concurrent downloads do to each other's names. The journal path follows from the
URL, while the exclusive creation guards the part path: two downloads of one URL replace
each other's journal. The final path is looked at before the part file is created and is
not looked at again: what appears there in between is replaced by the rename.
-/

namespace Downpour.DirectorySafety
open FileNames Remote Sink SingleStream SharedDirectory

/-- The plan of a download that has created files and may still remove or rename them. -/
def holding : Phase → Option Plan
  | .parted plan | .blocked plan | .cleared plan | .live plan _ | .named plan | .dropping plan
  | .dropped plan => some plan
  | _ => none

/-- The plan of a download that has found its final path free and has not come to its rename. -/
def seeking : Phase → Option Plan
  | .checked plan | .parted plan | .blocked plan | .cleared plan | .live plan _ => some plan
  | _ => none

/-- The plan of a download whose part file has not been renamed or removed. -/
def keeping : Phase → Option Plan
  | .parted plan | .blocked plan | .cleared plan | .live plan _ | .dropping plan => some plan
  | _ => none

def Out (phase : Phase) : Prop := seeking phase = none ∧ keeping phase = none

/-- What a step can be. `leaves` is a step to a phase without a final path and a part file. -/
inductive Moves (volume : Volume String) : Phase → Action → Op String → Phase → Prop where
  | looks (plan : Plan) (free : volume.named plan.finalPath = none) :
      Moves volume .idle (.look plan) .nothing (.checked plan)
  | leaves (phase next : Phase) (action : Action) (out : Out next) :
      Moves volume phase action .nothing next
  | drops (plan : Plan) (file : Option Nat) :
      Moves volume (.live plan file) .discard .nothing (.dropping plan)
  | removes (phase next : Phase) (action : Action) (plan : Plan) (path : String)
      (held : holding phase = some plan)
      (own : plan.journalPath = some path ∨ (keeping phase = some plan ∧ path = plan.partPath))
      (out : Out next) : Moves volume phase action (.remove path) next
  | part (plan : Plan) (next : Phase) (free : volume.named plan.partPath = none)
      (claims : next = .parted plan ∨ next = .live plan none) :
      Moves volume (.checked plan) .createPart (.create plan.partPath) next
  | waits (plan : Plan) : Moves volume (.parted plan) .createJournal .nothing (.blocked plan)
  | orphan (plan : Plan) (journal : String) (path : plan.journalPath = some journal) :
      Moves volume (.blocked plan) .removeOrphan (.remove journal) (.cleared plan)
  | journal (phase : Phase) (plan : Plan) (journal : String)
      (waiting : phase = .parted plan ∨ phase = .cleared plan)
      (path : plan.journalPath = some journal) (free : volume.named journal = none) :
      Moves volume phase .createJournal (.create journal) (.live plan (some volume.fresh))
  | works (plan : Plan) (file : Option Nat) :
      Moves volume (.live plan file) .work .nothing (.live plan file)
  | final (plan : Plan) (file : Option Nat) (next : Phase) (out : Out next) :
      Moves volume (.live plan file) .rename (.rename plan.partPath plan.finalPath) next

theorem step_moves (taken : phase.step volume action = some (op, next)) :
    Moves volume phase action op next := by
  unfold Phase.step at taken
  split at taken
  · split at taken
    · cases taken
    next free =>
      cases taken
      exact .looks _ (by simpa using free)
  next plan =>
    split at taken
    · cases taken
      exact .leaves _ _ _ ⟨rfl, rfl⟩
    next free =>
      cases taken
      refine .part plan _ (by simpa using free) ?_
      split
      · exact Or.inl rfl
      · exact Or.inr rfl
  next plan =>
    obtain ⟨journal, path, made⟩ := Option.map_eq_some_iff.mp taken
    split at made
    · cases made
      exact .waits plan
    next free =>
      cases made
      exact .journal _ plan journal (Or.inl rfl) path (by simpa using free)
  next plan =>
    obtain ⟨journal, path, made⟩ := Option.map_eq_some_iff.mp taken
    split at made
    · cases made
      exact .orphan plan journal path
    · cases made
      exact .leaves _ _ _ ⟨rfl, rfl⟩
  next plan =>
    obtain ⟨journal, path, made⟩ := Option.map_eq_some_iff.mp taken
    split at made
    · cases made
      exact .leaves _ _ _ ⟨rfl, rfl⟩
    next free =>
      cases made
      exact .journal _ plan journal (Or.inr rfl) path (by simpa using free)
  next plan journal =>
    cases taken
    exact .works plan journal
  next plan journal =>
    split at taken
    · cases taken
      refine .final plan journal _ ?_
      split <;> exact ⟨rfl, rfl⟩
    · cases taken
      exact .leaves _ _ _ ⟨rfl, rfl⟩
  next plan failed =>
    obtain ⟨journal, path, made⟩ := Option.map_eq_some_iff.mp taken
    cases failed
    · cases made
      exact .removes _ _ _ plan journal rfl (Or.inl path) ⟨rfl, rfl⟩
    · cases made
      exact .leaves _ _ _ ⟨rfl, rfl⟩
  next plan journal =>
    cases taken
    exact .drops plan journal
  next plan failed =>
    have out : Out (if plan.journalPath.isSome then .dropped plan else .idle) := by
      split <;> exact ⟨rfl, rfl⟩
    cases failed
    · cases taken
      exact .removes _ _ _ plan _ rfl (Or.inr ⟨rfl, rfl⟩) out
    · cases taken
      exact .leaves _ _ _ out
  next plan failed =>
    obtain ⟨journal, path, made⟩ := Option.map_eq_some_iff.mp taken
    cases failed
    · cases made
      exact .removes _ _ _ plan journal rfl (Or.inl path) ⟨rfl, rfl⟩
    · cases made
      exact .leaves _ _ _ ⟨rfl, rfl⟩
  · cases taken
    exact .leaves _ _ _ ⟨rfl, rfl⟩
  · cases taken
    exact .leaves _ _ _ ⟨rfl, rfl⟩
  · cases taken

/-! The journal of a live sink. -/

section Journals
variable {Id : Type}

def Owned (sys : System Id) : Prop :=
  ∀ id plan file journal, sys.phases id = .live plan (some file) →
    plan.journalPath = some journal → sys.volume.named journal = some file

def Apart (sys : System Id) : Prop :=
  ∀ first second, first ≠ second →
    ∀ plan ∈ holding (sys.phases first), ∀ other ∈ holding (sys.phases second),
      ∀ journal ∈ plan.journalPath, other.journalPath ≠ some journal ∧ journal ≠ other.partPath ∧
        journal ≠ other.finalPath

instance [Fintype Id] [DecidableEq Id] (sys : System Id) : Decidable (Apart sys) := by
  unfold Apart
  infer_instance

theorem moves_destroys (moves : Moves volume phase action op next) (gone : path ∈ op.destroys) :
    ∃ plan, holding phase = some plan ∧ (plan.journalPath = some path ∨
      (keeping phase = some plan ∧ path = plan.partPath) ∨ path = plan.finalPath) := by
  cases moves with
  | looks _ _ => cases gone
  | leaves _ _ _ _ => cases gone
  | drops _ _ => cases gone
  | removes _ _ _ plan removed held own _ =>
    obtain rfl := List.mem_singleton.mp gone
    exact ⟨plan, held, own.imp_right Or.inl⟩
  | part _ _ _ _ => cases gone
  | waits _ => cases gone
  | orphan plan journal path =>
    obtain rfl := List.mem_singleton.mp gone
    exact ⟨plan, rfl, Or.inl path⟩
  | journal _ _ _ _ _ _ => cases gone
  | works _ _ => cases gone
  | final plan file _ _ =>
    refine ⟨plan, rfl, Or.inr ?_⟩
    simpa [Op.destroys, keeping] using gone

theorem moves_live (moves : Moves volume phase action op (.live plan (some file))) :
    (phase = .live plan (some file) ∧ op = .nothing) ∨
      ∃ journal, plan.journalPath = some journal ∧ op = .create journal ∧
        volume.named journal = none ∧ file = volume.fresh := by
  cases moves with
  | leaves _ _ _ out => cases out.1
  | removes _ _ _ _ _ _ _ out => cases out.1
  | part plan _ free claims => rcases claims with impossible | impossible <;> cases impossible
  | journal _ _ journal _ path free => exact Or.inr ⟨journal, path, rfl, free, rfl⟩
  | works _ _ => exact Or.inl ⟨rfl, rfl⟩
  | final _ _ _ out => cases out.1

variable [DecidableEq Id]

theorem step_owned {sys next : System Id} {id : Id} {action : Action} (owned : Owned sys)
    (apart : Apart sys) (taken : sys.step id action = some next) : Owned next := by
  obtain ⟨op, phase, local', volume, own, others⟩ := step_effect taken
  have moves := step_moves local'
  intro other plan file journal live path
  rw [volume]
  by_cases same : other = id
  · subst same
    rw [own] at live
    subst live
    rcases moves_live moves with
      ⟨before, rfl⟩ | ⟨created, named, rfl, free, rfl⟩
    · exact owned other plan file journal before path
    · rw [path] at named
      cases named
      exact apply_create sys.volume free
  · rw [others other same] at live
    refine apply_keeps sys.volume (fun gone => ?_) (owned other plan file journal live path)
    -- The name that goes is one of the actor's plan, and they are apart.
    obtain ⟨mine, held, which⟩ := moves_destroys moves gone
    obtain ⟨journals, part, final⟩ := apart other id same plan (by rw [live]; rfl) mine held journal path
    rcases which with isJournal | ⟨_, isPart⟩ | isFinal
    · exact journals isJournal
    · exact part isPart
    · exact final isFinal

end Journals

/-- In every run in which no journal path of a download is a name of another one at work,
each live sink finds its own journal under its path. -/
theorem journals_owned {Id : Type} [DecidableEq Id] (volume : Volume String) (sys : System Id)
    (reached : Run (fun sys _ _ => Apart sys) volume sys) : Owned sys := by
  apply run_invariant (fun sys _ _ => Apart sys) volume
  · intro id plan file journal live
    cases live
  · intro sys next id action owned apart taken
    exact step_owned owned apart taken
  · exact reached

/-! Two downloads, with an empty directory for each of them and one for the journals. -/

def lengthBlake3 (bytes : List UInt8) : JournalFormat.Digest :=
  List.Vector.replicate 32 (UInt8.ofNat bytes.length)

def emptyVolume : Volume String := ⟨fun _ => none, 0, nofun⟩

/-- The file `f` of four bytes behind a URL, saved into the given directory. -/
def planIn (directory : String) (url : List Char) : Plan :=
  planFor lengthBlake3 id ⟨directory, "state"⟩
    ⟨url, [url], some 4, .absent, .none, none, .http11, some ['f'], 0⟩

def creates (id : Bool) (plan : Plan) : List (Bool × Action) :=
  [(id, .look plan), (id, .createPart), (id, .createJournal)]

/-- One URL into two directories: the second download takes the live journal of the first
for an orphan and replaces it. -/
theorem live_journal_replaced :
    ∃ sys : System Bool, Run (fun _ _ _ => True) emptyVolume sys ∧
      sys.phases false = .live (planIn "a" ['u']) (some 1) ∧
      sys.phases true = .live (planIn "b" ['u']) (some 3) ∧ ¬ Owned sys := by
  have taken : ((System.initial emptyVolume).run (fun _ _ _ => True)
      (creates false (planIn "a" ['u']) ++ creates true (planIn "b" ['u']) ++
        [(true, .removeOrphan), (true, .createJournal)])).map
        (fun sys => (sys.phases false, sys.phases true,
          (planIn "a" ['u']).journalPath.bind sys.volume.named)) =
      some (.live (planIn "a" ['u']) (some 1), .live (planIn "b" ['u']) (some 3), some 3) := by
    decide +kernel
  obtain ⟨sys, ran, shape⟩ := Option.map_eq_some_iff.mp taken
  obtain ⟨first, second, behind⟩ : _ ∧ _ ∧ _ := by simpa using shape
  refine ⟨sys, schedule_run _ .start ran, first, second, fun owned => ?_⟩
  have path : (planIn "a" ['u']).journalPath = some
      (journalPathFor "state" (transferIdFor lengthBlake3 ['u'])) := rfl
  rw [path, Option.bind_some, owned false _ 1 _ first path] at behind
  cases behind

/-- With two URLs each sink has its own journal. -/
theorem two_journals_owned :
    ∃ sys : System Bool, sys.phases false = .live (planIn "a" ['u']) (some 1) ∧
      sys.phases true = .live (planIn "b" ['u', 'v']) (some 3) ∧ Owned sys := by
  have taken : ((System.initial emptyVolume).run (fun sys _ _ => Apart sys)
      (creates false (planIn "a" ['u']) ++ creates true (planIn "b" ['u', 'v']))).map
        (fun sys => (sys.phases false, sys.phases true)) =
      some (.live (planIn "a" ['u']) (some 1), .live (planIn "b" ['u', 'v']) (some 3)) := by
    decide +kernel
  obtain ⟨sys, ran, shape⟩ := Option.map_eq_some_iff.mp taken
  obtain ⟨first, second⟩ : _ ∧ _ := by simpa using shape
  exact ⟨sys, first, second, journals_owned emptyVolume sys (schedule_run _ .start ran)⟩

/-! The final path, from the look at it to the rename. -/

def planned : Phase → Option Plan
  | .checked plan => some plan
  | phase => holding phase

def checkedPlan : Phase → Option Plan
  | .checked plan => some plan
  | _ => none

def livePlan : Phase → Option Plan
  | .live plan _ => some plan
  | _ => none

section Finals
variable {Id : Type}

def Overwrites (sys : System Id) (id : Id) (action : Action) : Prop :=
  action = .rename ∧ ∃ plan file part other, sys.phases id = .live plan file ∧
    sys.volume.named plan.partPath = some part ∧
    sys.volume.named plan.finalPath = some other

/-- No final path of a download at work is the name of a part file or a journal of one,
and no journal has the name of a part file. -/
def Unmixed (sys : System Id) : Prop :=
  ∀ first second, ∀ plan ∈ planned (sys.phases first), ∀ other ∈ planned (sys.phases second),
    plan.partPath ≠ other.finalPath ∧
      ∀ journal ∈ plan.journalPath, journal ≠ other.finalPath ∧ journal ≠ other.partPath

/-- No rename takes a final path that another download has just found free, before that
one has come to the creation of its part file. -/
def Windowed (sys : System Id) (id : Id) (action : Action) : Prop :=
  action = .rename → ∀ plan ∈ livePlan (sys.phases id),
    ∀ other, ∀ seen ∈ checkedPlan (sys.phases other), seen.finalPath ≠ plan.finalPath

def Undisturbed (sys : System Id) (id : Id) (action : Action) : Prop :=
  Unmixed sys ∧ Windowed sys id action

instance [Fintype Id] [DecidableEq Id] (sys : System Id) (id : Id) (action : Action) :
    Decidable (Undisturbed sys id action) := by
  unfold Undisturbed Unmixed Windowed
  infer_instance

/-- What the look and the part file guard together: the final path stays free, the part
file stays, and there is one download for it. -/
structure Guarded (sys : System Id) : Prop where
  free : ∀ id plan, seeking (sys.phases id) = some plan → sys.volume.named plan.finalPath = none
  held : ∀ id plan, keeping (sys.phases id) = some plan →
    (sys.volume.named plan.partPath).isSome = true
  single : ∀ first second plan other, keeping (sys.phases first) = some plan →
    keeping (sys.phases second) = some other → plan.partPath = other.partPath → first = second

theorem seeking_planned (seeks : seeking phase = some plan) : planned phase = some plan := by
  cases phase <;> first | exact seeks | cases seeks

theorem holding_planned (held : holding phase = some plan) : planned phase = some plan := by
  cases phase <;> first | exact held | cases held

theorem keeping_holding (keeps : keeping phase = some plan) : holding phase = some plan := by
  cases phase <;> first | exact keeps | cases keeps

theorem seeking_checked_or_keeping (seeks : seeking phase = some plan) :
    checkedPlan phase = some plan ∨ keeping phase = some plan := by
  cases phase <;> first | exact Or.inl seeks | exact Or.inr seeks

theorem moves_seeking (moves : Moves volume phase action op next)
    (seeks : seeking next = some plan) :
    (seeking phase = some plan ∧ action ≠ .rename) ∨
      (op = .nothing ∧ volume.named plan.finalPath = none) := by
  cases moves with
  | looks found free =>
    cases seeks
    exact Or.inr ⟨rfl, free⟩
  | leaves _ _ _ out =>
    rw [out.1] at seeks
    cases seeks
  | drops _ _ => cases seeks
  | removes _ _ _ _ _ _ _ out =>
    rw [out.1] at seeks
    cases seeks
  | part _ _ _ claims =>
    rcases claims with rfl | rfl
    · exact Or.inl ⟨seeks, by simp⟩
    · exact Or.inl ⟨seeks, by simp⟩
  | waits _ => exact Or.inl ⟨seeks, by simp⟩
  | orphan _ _ _ => exact Or.inl ⟨seeks, by simp⟩
  | journal _ _ _ waiting _ _ =>
    rcases waiting with rfl | rfl
    · exact Or.inl ⟨seeks, by simp⟩
    · exact Or.inl ⟨seeks, by simp⟩
  | works _ _ => exact Or.inl ⟨seeks, by simp⟩
  | final _ _ _ out =>
    rw [out.1] at seeks
    cases seeks

theorem moves_keeping (moves : Moves volume phase action op next)
    (keeps : keeping next = some plan) :
    (keeping phase = some plan ∧ ∀ path ∈ op.destroys, plan.journalPath = some path) ∨
      (op = .create plan.partPath ∧ volume.named plan.partPath = none) := by
  cases moves with
  | looks _ _ => cases keeps
  | leaves _ _ _ out =>
    rw [out.2] at keeps
    cases keeps
  | drops _ _ => exact Or.inl ⟨keeps, by simp [Op.destroys]⟩
  | removes _ _ _ _ _ _ _ out =>
    rw [out.2] at keeps
    cases keeps
  | part _ _ free claims =>
    rcases claims with rfl | rfl
    · cases keeps
      exact Or.inr ⟨rfl, free⟩
    · cases keeps
      exact Or.inr ⟨rfl, free⟩
  | waits _ => exact Or.inl ⟨keeps, by simp [Op.destroys]⟩
  | orphan _ journal path =>
    cases keeps
    exact Or.inl ⟨rfl, by simpa [Op.destroys] using path⟩
  | journal _ _ _ waiting _ _ =>
    rcases waiting with rfl | rfl
    · exact Or.inl ⟨keeps, by simp [Op.destroys]⟩
    · exact Or.inl ⟨keeps, by simp [Op.destroys]⟩
  | works _ _ => exact Or.inl ⟨keeps, by simp [Op.destroys]⟩
  | final _ _ _ out =>
    rw [out.2] at keeps
    cases keeps

theorem moves_creates (moves : Moves volume phase action op next) (made : path ∈ op.creates) :
    ∃ plan, planned phase = some plan ∧ (path = plan.partPath ∨ plan.journalPath = some path ∨
      (livePlan phase = some plan ∧ action = .rename ∧ path = plan.finalPath)) := by
  cases moves with
  | looks _ _ => cases made
  | leaves _ _ _ _ => cases made
  | drops _ _ => cases made
  | removes _ _ _ _ _ _ _ _ => cases made
  | part plan _ _ _ =>
    obtain rfl := List.mem_singleton.mp made
    exact ⟨plan, rfl, Or.inl rfl⟩
  | waits _ => cases made
  | orphan _ _ _ => cases made
  | journal _ plan _ waiting path _ =>
    obtain rfl := List.mem_singleton.mp made
    refine ⟨plan, ?_, Or.inr (Or.inl path)⟩
    rcases waiting with rfl | rfl <;> rfl
  | works _ _ => cases made
  | final plan _ _ _ =>
    obtain rfl := List.mem_singleton.mp made
    exact ⟨plan, rfl, Or.inr (Or.inr ⟨rfl, rfl, rfl⟩)⟩

variable {sys next : System Id} {id : Id} {action : Action}

/-- The part file of another download keeps a rename away from its final path. -/
theorem renamed_elsewhere (guarded : Guarded sys) (windowed : Windowed sys id .rename)
    (live : livePlan (sys.phases id) = some mine) (seeks : seeking (sys.phases other) = some plan)
    (apart : other ≠ id) : plan.finalPath ≠ mine.finalPath := by
  intro same
  rcases seeking_checked_or_keeping seeks with checked | keeps
  · exact windowed rfl mine live other plan checked same
  · have mineKept : keeping (sys.phases id) = some mine := by
      cases phase : sys.phases id with
      | live own file =>
        rw [phase] at live
        exact live
      | _ =>
        rw [phase] at live
        cases live
    exact apart (guarded.single other id plan mine keeps mineKept (congrArg partPathFor same))

theorem final_not_created (guarded : Guarded sys) (undisturbed : Undisturbed sys id action)
    (moves : Moves sys.volume (sys.phases id) action op phase)
    (seeks : seeking (sys.phases other) = some plan) (away : other = id → action ≠ .rename) :
    plan.finalPath ∉ op.creates := by
  intro made
  obtain ⟨mine, at', which⟩ := moves_creates moves made
  obtain ⟨parts, journals⟩ := undisturbed.1 id other mine at' plan (seeking_planned seeks)
  rcases which with isPart | isJournal | ⟨live, rfl, isFinal⟩
  · exact parts isPart.symm
  · exact (journals _ isJournal).1 rfl
  · exact renamed_elsewhere guarded undisturbed.2 live seeks (fun same => away same rfl) isFinal

theorem part_not_destroyed (guarded : Guarded sys) (undisturbed : Undisturbed sys id action)
    (moves : Moves sys.volume (sys.phases id) action op phase)
    (keeps : keeping (sys.phases other) = some plan) (apart : other ≠ id) :
    plan.partPath ∉ op.destroys := by
  intro gone
  obtain ⟨mine, held, which⟩ := moves_destroys moves gone
  have theirs := holding_planned (keeping_holding keeps)
  rcases which with isJournal | ⟨mineKept, isPart⟩ | isFinal
  · exact ((undisturbed.1 id other mine (holding_planned held) plan theirs).2 _ isJournal).2 rfl
  · exact apart (guarded.single other id plan mine keeps mineKept isPart)
  · exact (undisturbed.1 other id plan theirs mine (holding_planned held)).1 isFinal

theorem apply_held (volume : Volume String) (kept : path ∉ op.destroys)
    (found : (volume.named path).isSome = true) :
    ((volume.apply op).named path).isSome = true := by
  obtain ⟨file, named⟩ := Option.isSome_iff_exists.mp found
  rw [apply_keeps volume kept named]
  rfl

/-- A part file that is created has a name that no other download keeps. -/
theorem created_single (guarded : Guarded sys) (free : sys.volume.named path = none)
    (keeps : keeping (sys.phases other) = some plan) : plan.partPath ≠ path := by
  rintro rfl
  have held := guarded.held other plan keeps
  rw [free] at held
  cases held

variable [DecidableEq Id]

theorem step_guarded (guarded : Guarded sys) (undisturbed : Undisturbed sys id action)
    (taken : sys.step id action = some next) : Guarded next := by
  obtain ⟨op, phase, local', volume, own, others⟩ := step_effect taken
  have moves := step_moves local'
  refine ⟨fun other plan seeks => ?_, fun other plan keeps => ?_, ?_⟩
  · rw [volume]
    by_cases same : other = id
    · subst same
      rw [own] at seeks
      rcases moves_seeking moves seeks with ⟨before, notRename⟩ | ⟨rfl, free⟩
      · exact apply_free sys.volume
          (final_not_created guarded undisturbed moves before fun _ => notRename)
          (guarded.free other plan before)
      · exact free
    · rw [others other same] at seeks
      exact apply_free sys.volume
        (final_not_created guarded undisturbed moves seeks fun isOwn => absurd isOwn same)
        (guarded.free other plan seeks)
  · rw [volume]
    by_cases same : other = id
    · subst same
      rw [own] at keeps
      rcases moves_keeping moves keeps with ⟨before, onlyJournal⟩ | ⟨rfl, free⟩
      · have at' := holding_planned (keeping_holding before)
        refine apply_held sys.volume (fun gone => ?_) (guarded.held other plan before)
        exact ((undisturbed.1 other other plan at' plan at').2 _ (onlyJournal _ gone)).2 rfl
      · rw [apply_create sys.volume free]
        rfl
    · rw [others other same] at keeps
      exact apply_held sys.volume (part_not_destroyed guarded undisturbed moves keeps same)
        (guarded.held other plan keeps)
  · -- Only the creation of a part file makes a new keeper, and its name was free.
    have fresh : ∀ plan, keeping phase = some plan → keeping (sys.phases id) = some plan ∨
        sys.volume.named plan.partPath = none := fun plan keeps =>
      (moves_keeping moves keeps).imp (·.1) (·.2)
    have apart : ∀ other plan mine, other ≠ id → keeping (sys.phases other) = some plan →
        keeping phase = some mine → plan.partPath ≠ mine.partPath := by
      intro other plan mine different keeps mineKept same
      rcases fresh mine mineKept with before | free
      · exact different (guarded.single other id plan mine keeps before same)
      · exact created_single guarded free keeps same
    intro first second plan other firstKeeps secondKeeps same
    by_contra different
    by_cases isFirst : first = id
    · subst isFirst
      rw [own] at firstKeeps
      rw [others second (Ne.symm different)] at secondKeeps
      exact apart second other plan (Ne.symm different) secondKeeps firstKeeps same.symm
    · rw [others first isFirst] at firstKeeps
      by_cases isSecond : second = id
      · subst isSecond
        rw [own] at secondKeeps
        exact apart first plan other different firstKeeps secondKeeps same
      · rw [others second isSecond] at secondKeeps
        exact different (guarded.single first second plan other firstKeeps secondKeeps same)

end Finals

/-- In every run in which no rename falls between another download's look at that final
path and the creation of its part file, and no name of one kind is in use for another, no
rename replaces a file. -/
theorem no_file_overwritten {Id : Type} [DecidableEq Id] (volume : Volume String)
    (sys : System Id) (reached : Run Undisturbed volume sys) (id : Id) (action : Action) :
    ¬ Overwrites sys id action := by
  have guarded : Guarded sys := by
    apply run_invariant Undisturbed volume
    · exact ⟨by simp [System.initial, seeking], by simp [System.initial, keeping],
        by simp [System.initial, keeping]⟩
    · intro sys next id action before undisturbed taken
      exact step_guarded before undisturbed taken
    · exact reached
  rintro ⟨_, plan, file, part, other, live, _, found⟩
  rw [guarded.free id plan (by rw [live]; rfl)] at found
  cases found

/-- Both downloads find the final path free. The first one finishes its file, and the
rename of the second one replaces it. -/
theorem finished_file_overwritten :
    ∃ sys next : System Bool, Run (fun _ _ _ => True) emptyVolume sys ∧
      Overwrites sys true .rename ∧ sys.step true .rename = some next ∧
      sys.volume.named "a/f" = some 0 ∧ next.volume.named "a/f" = some 2 := by
  let first := planIn "a" ['u']
  let second := planIn "a" ['u', 'v']
  have taken : ((System.initial emptyVolume).run (fun _ _ _ => True)
      ([(false, .look first), (true, .look second), (false, .createPart), (false, .createJournal),
        (false, .work), (false, .rename), (false, .removeJournal false), (true, .createPart),
        (true, .createJournal), (true, .work)])).map
        (fun sys => (sys.phases true, sys.volume.named "a/f.dppart",
          sys.volume.named "a/f", (sys.step true .rename).map (·.volume.named "a/f"))) =
      some (.live second (some 3), some 2, some 0, some (some 2)) := by
    decide +kernel
  obtain ⟨sys, ran, shape⟩ := Option.map_eq_some_iff.mp taken
  obtain ⟨live, part, final, renames⟩ : _ ∧ _ ∧ _ ∧ _ := by simpa using shape
  obtain ⟨next, step, replaced⟩ := renames
  exact ⟨sys, next, schedule_run _ .start ran,
    ⟨rfl, second, some 3, 2, 0, live, part, final⟩, step, final, replaced⟩

/-- Two downloads have found the same final path free. The part file of the first one ends
the second, and the rename finds the path still free. -/
theorem shared_path_kept :
    let first := planIn "a" ['u']
    let second := planIn "a" ['u', 'v']
    first.finalPath = second.finalPath ∧
    ∃ sys : System Bool, Run Undisturbed emptyVolume sys ∧ sys.phases false = .live first (some 1) ∧
      sys.phases true = .ended ∧ ¬ Overwrites sys false .rename := by
  intro first second
  have taken : ((System.initial emptyVolume).run Undisturbed
      ([(false, .look first), (true, .look second), (false, .createPart), (true, .createPart),
        (false, .createJournal), (false, .work)])).map
        (fun sys => (sys.phases false, sys.phases true)) =
      some (.live first (some 1), .ended) := by
    decide +kernel
  obtain ⟨sys, ran, shape⟩ := Option.map_eq_some_iff.mp taken
  obtain ⟨live, out⟩ : _ ∧ _ := by simpa using shape
  have reached := schedule_run _ .start ran
  exact ⟨rfl, sys, reached, live, out, no_file_overwritten emptyVolume sys reached false .rename⟩

end Downpour.DirectorySafety
