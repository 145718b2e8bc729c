import Mathlib

/-!
Names of files, as system calls change them. A name leads to a file, which is known by
its number; a new file has a number that no file had before. The content of the files is
left out. A call that fails changes nothing.
-/

namespace FileNames

inductive Op (Path : Type) where
  | nothing
  | create (path : Path)
  | remove (path : Path)
  | rename (source target : Path)
  deriving DecidableEq

/-- The file behind every name, and a number that is not in use. -/
structure Volume (Path : Type) where
  named : Path → Option Nat
  fresh : Nat
  used : ∀ path file, named path = some file → file < fresh

namespace Volume
variable {Path : Type} [DecidableEq Path]

def bind (volume : Volume Path) (path : Path) (file : Nat) (old : file < volume.fresh) :
    Volume Path where
  named := Function.update volume.named path (some file)
  fresh := volume.fresh
  used := by
    intro other behind found
    by_cases same : other = path
    · subst same
      rw [Function.update_self] at found
      exact Option.some.inj found ▸ old
    · rw [Function.update_of_ne same] at found
      exact volume.used other behind found

def unbind (volume : Volume Path) (path : Path) : Volume Path where
  named := Function.update volume.named path none
  fresh := volume.fresh
  used := by
    intro other behind found
    by_cases same : other = path
    · subst same
      rw [Function.update_self] at found
      cases found
    · rw [Function.update_of_ne same] at found
      exact volume.used other behind found

def more (volume : Volume Path) : Volume Path where
  named := volume.named
  fresh := volume.fresh + 1
  used := fun path file found => Nat.lt_succ_of_lt (volume.used path file found)

/-- An exclusive creation needs a free name. A rename takes its target away from the file
that had it. -/
def apply (volume : Volume Path) : Op Path → Volume Path
  | .nothing => volume
  | .create path =>
    if (volume.named path).isSome then volume
    else volume.more.bind path volume.fresh (Nat.lt_succ_self _)
  | .remove path => volume.unbind path
  | .rename source target =>
    if source = target then volume
    else match found : volume.named source with
      | none => volume
      | some file => (volume.bind target file (volume.used source file found)).unbind source

end Volume

def Op.destroys {Path : Type} : Op Path → List Path
  | .nothing => []
  | .create _ => []
  | .remove path => [path]
  | .rename source target => [source, target]

def Op.creates {Path : Type} : Op Path → List Path
  | .nothing => []
  | .create path => [path]
  | .remove _ => []
  | .rename _ target => [target]

section Rules
variable {Path : Type} [DecidableEq Path] (volume : Volume Path)

@[simp]
theorem apply_nothing : volume.apply .nothing = volume := rfl

variable {path : Path}

theorem apply_create (free : volume.named path = none) :
    (volume.apply (.create path)).named path = some volume.fresh := by
  simp [Volume.apply, free, Volume.bind]

theorem apply_untouched (kept : path ∉ op.destroys) (old : path ∉ op.creates) :
    (volume.apply op).named path = volume.named path := by
  cases op with
  | nothing => rfl
  | create made =>
    have other : path ≠ made := by simpa [Op.creates] using old
    rw [Volume.apply]
    split
    · rfl
    · simp [Volume.bind, Volume.more, Function.update_of_ne other]
  | remove gone =>
    have other : path ≠ gone := by simpa [Op.destroys] using kept
    simp [Volume.apply, Volume.unbind, Function.update_of_ne other]
  | rename source target =>
    obtain ⟨first, second⟩ : path ≠ source ∧ path ≠ target := by
      simpa [Op.destroys] using kept
    rw [Volume.apply]
    split
    · rfl
    · split
      · rfl
      · simp [Volume.unbind, Volume.bind, Function.update_of_ne first,
          Function.update_of_ne second]

theorem apply_keeps (kept : path ∉ op.destroys)
    (found : volume.named path = some file) : (volume.apply op).named path = some file := by
  by_cases new : path ∈ op.creates
  · cases op with
    | create made =>
      -- The name is in use, so the creation fails.
      have same : path = made := by simpa [Op.creates] using new
      subst same
      simp [Volume.apply, found]
    | rename source target =>
      have same : path = target := by simpa [Op.creates] using new
      exact absurd kept (by simp [Op.destroys, same])
    | nothing => simp [Op.creates] at new
    | remove gone => simp [Op.creates] at new
  · rw [apply_untouched volume kept new, found]

theorem apply_free (old : path ∉ op.creates) (free : volume.named path = none) :
    (volume.apply op).named path = none := by
  by_cases gone : path ∈ op.destroys
  · cases op with
    | remove removed =>
      have same : path = removed := by simpa [Op.destroys] using gone
      subst same
      simp [Volume.apply, Volume.unbind]
    | rename source target =>
      have other : path ≠ target := by simpa [Op.creates] using old
      have same : path = source := by simpa [Op.destroys, other] using gone
      subst same
      rw [Volume.apply, if_neg other]
      split
      · exact free
      · simp [Volume.unbind]
    | nothing => simp [Op.destroys] at gone
    | create made => simp [Op.destroys] at gone
  · rw [apply_untouched volume gone old, free]

end Rules

end FileNames
