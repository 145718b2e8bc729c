import Downpour.Support.FileNames
import Downpour.Attempts

/-!
Several downloads at work on the names of one file system. A step is one system call of
one download; between two steps any other download may take its own. Every attempt of a
download plans its final path and its journal path anew, from what its probe has found.
Calls on open files do not change names and are one kind of step. Errors that end a
download may come at any point; the sink is then gone, and its files stay.
-/

namespace Downpour.SharedDirectory
open FileNames Remote JournalFormat Writer Completion Sink SingleStream Attempts

/-- The names of one attempt. There is a journal where the length is known. -/
structure Plan where
  finalPath : String
  journalPath : Option String
  deriving DecidableEq

def Plan.partPath (plan : Plan) : String := partPathFor plan.finalPath

def planFor {Url : Type} (blake3 : List UInt8 → Digest) (urlText : Url → List Char)
    (layout : StorageLayout) (remote : RemoteObject Url) : Plan where
  finalPath := layout.targetDir ++ "/" ++
    String.ofList (remote.suggestedFilename.getD "download".toList)
  journalPath := remote.totalLength.map fun _ =>
    journalPathFor layout.journalDir (transferIdFor blake3 (urlText remote.finalUrl))

/-- Where a download stands. The number is that of the journal file a sink appends to. -/
inductive Phase where
  | idle
  | checked (plan : Plan)
  | parted (plan : Plan)
  | blocked (plan : Plan)
  | cleared (plan : Plan)
  | live (plan : Plan) (journal : Option Nat)
  | named (plan : Plan)
  | dropping (plan : Plan)
  | dropped (plan : Plan)
  | ended
  deriving DecidableEq

inductive Action where
  /-- The final path is looked at and found free. -/
  | look (plan : Plan)
  | createPart
  | createJournal
  | removeOrphan
  /-- Writes, syncs, fetches and resumes. -/
  | work
  | rename
  | removeJournal (failed : Bool)
  /-- A transient failure without a prefix to resume from. -/
  | discard
  | removePart (failed : Bool)
  /-- A failed probe before a resume. -/
  | lose
  /-- An error that is not tried again. -/
  | fail
  deriving DecidableEq

/-- The call of an action, and where it leaves the download. An exclusive creation that
finds its name in use ends the download; only a journal in the way is removed once. -/
def Phase.step (volume : Volume String) : Phase → Action → Option (Op String × Phase)
  | .idle, .look plan =>
    if (volume.named plan.finalPath).isSome then none else some (.nothing, .checked plan)
  | .checked plan, .createPart =>
    if (volume.named plan.partPath).isSome then some (.nothing, .ended)
    else some (.create plan.partPath,
      if plan.journalPath.isSome then .parted plan else .live plan none)
  | .parted plan, .createJournal =>
    plan.journalPath.map fun journal =>
      if (volume.named journal).isSome then (.nothing, .blocked plan)
      else (.create journal, .live plan (some volume.fresh))
  | .blocked plan, .removeOrphan =>
    plan.journalPath.map fun journal =>
      if (volume.named journal).isSome then (.remove journal, .cleared plan)
      else (.nothing, .ended)
  | .cleared plan, .createJournal =>
    plan.journalPath.map fun journal =>
      if (volume.named journal).isSome then (.nothing, .ended)
      else (.create journal, .live plan (some volume.fresh))
  | .live plan journal, .work => some (.nothing, .live plan journal)
  | .live plan _, .rename =>
    if (volume.named plan.partPath).isSome then
      some (.rename plan.partPath plan.finalPath,
        if plan.journalPath.isSome then .named plan else .ended)
    else some (.nothing, .ended)
  | .named plan, .removeJournal failed =>
    plan.journalPath.map fun journal =>
      (if failed then .nothing else .remove journal, .ended)
  | .live plan _, .discard => some (.nothing, .dropping plan)
  | .dropping plan, .removePart failed =>
    some (if failed then .nothing else .remove plan.partPath,
      if plan.journalPath.isSome then .dropped plan else .idle)
  | .dropped plan, .removeJournal failed =>
    plan.journalPath.map fun journal =>
      (if failed then .nothing else .remove journal, .idle)
  | .live _ _, .lose => some (.nothing, .idle)
  | _, .fail => some (.nothing, .ended)
  | _, _ => none

structure System (Id : Type) where
  volume : Volume String
  phases : Id → Phase

section Runs
variable {Id : Type} [DecidableEq Id]

def System.step (sys : System Id) (id : Id) (action : Action) : Option (System Id) :=
  ((sys.phases id).step sys.volume action).map fun (op, phase) =>
    ⟨sys.volume.apply op, Function.update sys.phases id phase⟩

def System.run (meets : System Id → Id → Action → Prop)
    [∀ sys id action, Decidable (meets sys id action)] :
    System Id → List (Id × Action) → Option (System Id)
  | sys, [] => some sys
  | sys, (id, action) :: rest =>
    if meets sys id action then (sys.step id action).bind fun next => next.run meets rest
    else none

def System.initial (volume : Volume String) : System Id := ⟨volume, fun _ => .idle⟩

/-- The systems that a run can come to whose steps all meet a condition. -/
inductive Run (meets : System Id → Id → Action → Prop) (volume : Volume String) :
    System Id → Prop where
  | start : Run meets volume (System.initial volume)
  | step (sys next : System Id) (id : Id) (action : Action) (before : Run meets volume sys)
      (met : meets sys id action) (taken : sys.step id action = some next) :
      Run meets volume next

theorem step_effect {sys : System Id} {next : System Id} {id : Id} {action : Action}
    (taken : sys.step id action = some next) :
    ∃ op phase, (sys.phases id).step sys.volume action = some (op, phase) ∧
      next.volume = sys.volume.apply op ∧ next.phases id = phase ∧
      ∀ other, other ≠ id → next.phases other = sys.phases other := by
  obtain ⟨⟨op, phase⟩, local', rfl⟩ := Option.map_eq_some_iff.mp taken
  exact ⟨op, phase, local', rfl, Function.update_self _ _ _,
    fun other apart => Function.update_of_ne apart _ _⟩

theorem run_invariant (meets : System Id → Id → Action → Prop) (volume : Volume String)
    {invariant : System Id → Prop} (start : invariant (System.initial volume))
    (step : ∀ sys next id action, invariant sys → meets sys id action →
      sys.step id action = some next → invariant next)
    {sys : System Id} (reached : Run meets volume sys) : invariant sys := by
  induction reached with
  | start => exact start
  | step sys next id action before met taken ih => exact step sys next id action ih met taken

theorem schedule_run {meets : System Id → Id → Action → Prop}
    [∀ sys id action, Decidable (meets sys id action)]
    {schedule : List (Id × Action)} (sys : System Id) {final : System Id} (reached : Run meets volume sys)
    (taken : sys.run meets schedule = some final) : Run meets volume final := by
  induction schedule generalizing sys with
  | nil =>
    cases taken
    exact reached
  | cons next rest ih =>
    obtain ⟨id, action⟩ := next
    rw [System.run] at taken
    split at taken
    next met =>
      obtain ⟨middle, first, later⟩ := Option.bind_eq_some_iff.mp taken
      exact ih middle (.step sys middle id action reached met first) later
    next => cases taken

end Runs

/-! The steps of a creation are those of `StorageSink::create`. -/

/-- What the calls of a creation return, as far as the names decide it. -/
def createIo (volume : Volume String) (plan : Plan) (taken : JournalReplay.IoError) : CreateIo where
  part := if (volume.named plan.partPath).isSome then some taken else none
  prepare := none
  journal := plan.journalPath.bind fun journal =>
    if ((volume.apply (.create plan.partPath)).named journal).isSome then
      some (.journalAlreadyExists journal)
    else none
  removeOrphan := none
  journalAgain := none

def createActions (volume : Volume String) (plan : Plan) : List Action :=
  .createPart :: match plan.journalPath with
    | none => []
    | some journal =>
      if ((volume.apply (.create plan.partPath)).named journal).isSome then
        [.createJournal, .removeOrphan, .createJournal]
      else [.createJournal]

variable {target : String} {io : CreateIo}

theorem create_part_free (made : createPart outside target totalLength io = .ok ()) :
    io.part = none := by
  unfold createPart at made
  cases part : io.part with
  | none => rfl
  | some source =>
    simp only [part] at made
    repeat' split at made
    all_goals cases made

theorem create_growable_free (made : createGrowable outside target io = .ok ()) :
    io.part = none := by
  unfold createGrowable at made
  cases part : io.part with
  | none => rfl
  | some source =>
    simp only [part] at made
    repeat' split at made
    all_goals cases made

theorem create_artifacts
    (created : Sink.create outside intervalText target journalPath totalLength transferId
      validatorHash digest io = .ok sink) :
    io.part = none ∧
      sink.artifacts = ⟨partPathFor target, totalLength.map fun _ => journalPath⟩ := by
  unfold Sink.create at created
  cases totalLength with
  | none =>
    simp only at created
    split at created
    · cases created
    next made =>
      cases created
      exact ⟨create_growable_free made, rfl⟩
  | some total =>
    simp only at created
    split at created
    · cases created
    next made =>
      repeat' split at created
      all_goals cases created
      exact ⟨create_part_free made, rfl⟩

def alone (volume : Volume String) (phase : Phase) : System Unit := ⟨volume, fun _ => phase⟩

def soloRun (sys : System Unit) (actions : List Action) : Option (System Unit) :=
  sys.run (fun _ _ _ => True) (actions.map fun action => ((), action))

theorem alone_step (rest : List Action) (taken : phase.step volume action = some (op, next)) :
    soloRun (alone volume phase) (action :: rest) = soloRun (alone (volume.apply op) next) rest := by
  have first : (alone volume phase).step () action = some (alone (volume.apply op) next) := by
    simp only [System.step, alone, taken, Option.map_some, Option.some.injEq, System.mk.injEq,
      true_and]
    exact funext fun _ => Function.update_self _ _ _
  simp only [soloRun, List.map_cons, System.run, if_true, first, Option.bind_some]

theorem create_follows (names : plan.journalPath = totalLength.map fun _ => journalPath)
    (created : Sink.create outside intervalText plan.finalPath journalPath totalLength transferId
      validatorHash digest (createIo volume plan taken) = .ok sink) :
    ∃ final file, soloRun (alone volume (.checked plan)) (createActions volume plan) = some final ∧
      final.phases () = .live plan file ∧ sink.artifacts = ⟨plan.partPath, plan.journalPath⟩ ∧
      ∀ journal, plan.journalPath = some journal → final.volume.named journal = file := by
  obtain ⟨part, artifacts⟩ := create_artifacts created
  have free : ¬ (volume.named plan.partPath).isSome = true := by
    intro used
    simp [createIo, used] at part
  rw [← names] at artifacts
  have parts : (Phase.checked plan).step volume .createPart = some (.create plan.partPath,
      if plan.journalPath.isSome then .parted plan else .live plan none) := by
    rw [Phase.step, if_neg free]
  cases path : plan.journalPath with
  | none =>
    rw [path] at parts artifacts
    refine ⟨alone (volume.apply (.create plan.partPath)) (.live plan none), none, ?_, rfl, artifacts,
      nofun⟩
    rw [createActions, path, alone_step _ parts]
    rfl
  | some journal =>
    rw [path] at artifacts
    rw [path, if_pos Option.isSome_some] at parts
    let parted := volume.apply (.create plan.partPath)
    by_cases used : (parted.named journal).isSome = true
    · -- The journal in the way is removed, and the second creation finds the name free.
      let removed := parted.apply (.remove journal)
      have gone : removed.named journal = none := by simp [removed, Volume.apply, Volume.unbind]
      have finds : (Phase.parted plan).step parted .createJournal =
          some (.nothing, .blocked plan) := by
        simp [Phase.step, path, used]
      have clears : (Phase.blocked plan).step parted .removeOrphan =
          some (.remove journal, .cleared plan) := by
        simp [Phase.step, path, used]
      have creates : (Phase.cleared plan).step removed .createJournal =
          some (.create journal, .live plan (some removed.fresh)) := by
        simp [Phase.step, path, gone]
      refine ⟨alone (removed.apply (.create journal)) (.live plan (some removed.fresh)),
        some removed.fresh, ?_, rfl, artifacts, ?_⟩
      · have calls : createActions volume plan =
            [.createPart, .createJournal, .removeOrphan, .createJournal] := by
          simp only [createActions, path]
          exact congrArg _ (if_pos used)
        rw [calls, alone_step _ parts, alone_step _ finds, apply_nothing,
          alone_step _ clears, alone_step _ creates]
        rfl
      · rintro _ ⟨⟩
        exact apply_create removed gone
    · have unused : parted.named journal = none := by simpa using used
      have creates : (Phase.parted plan).step parted .createJournal =
          some (.create journal, .live plan (some parted.fresh)) := by
        simp [Phase.step, path, unused]
      refine ⟨alone (parted.apply (.create journal)) (.live plan (some parted.fresh)),
        some parted.fresh, ?_, rfl, artifacts, ?_⟩
      · have calls : createActions volume plan = [.createPart, .createJournal] := by
          simp only [createActions, path]
          exact congrArg _ (if_neg used)
        rw [calls, alone_step _ parts, alone_step _ creates]
        rfl
      · rintro _ ⟨⟩
        exact apply_create parted unused

end Downpour.SharedDirectory
