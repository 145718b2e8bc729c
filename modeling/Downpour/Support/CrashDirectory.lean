import Downpour.Support.CrashTrace

/-!
A file behind a fixed path, and a new file beside it that is renamed over it.
What a crash leaves in a file is one of the contents it may have survived with;
of a file written and not synced nothing is known. A rename is atomic, and until
the directory is synced a crash may undo it.
-/

namespace CrashDirectory

variable {Byte : Type}

inductive Event (Byte : Type) where
  | cut (size : Nat)
  | cutFailed (size : Nat)
  | syncNamed
  | syncNamedFailed
  | create
  | createFailed
  | write (bytes : List Byte)
  | writeFailed (bytes : List Byte) (landed : Nat)
  | syncFresh
  | syncFreshFailed
  | rename
  | renameFailed
  | syncDirectory
  | syncDirectoryFailed
  deriving DecidableEq

inductive Torn : Event Byte → Event Byte → Prop where
  | cut (size : Nat) : Torn (.cut size) (.cutFailed size)
  | cutFailed (size : Nat) : Torn (.cutFailed size) (.cutFailed size)
  | syncNamed : Torn .syncNamed .syncNamedFailed
  | syncNamedFailed : Torn .syncNamedFailed .syncNamedFailed
  | create : Torn .create .createFailed
  | createFailed : Torn .createFailed .createFailed
  | write (bytes : List Byte) (landed : Nat) : Torn (.write bytes) (.writeFailed bytes landed)
  | writeFailed (bytes : List Byte) (before landed : Nat) :
      Torn (.writeFailed bytes before) (.writeFailed bytes landed)
  | syncFresh : Torn .syncFresh .syncFreshFailed
  | syncFreshFailed : Torn .syncFreshFailed .syncFreshFailed
  | rename : Torn .rename .renameFailed
  | renameFailed : Torn .renameFailed .renameFailed
  | syncDirectory : Torn .syncDirectory .syncDirectoryFailed
  | syncDirectoryFailed : Torn .syncDirectoryFailed .syncDirectoryFailed

structure File (Byte : Type) where
  visible : List Byte
  surviving : Set (List Byte)

/-- `named` is the file behind the path; `former` holds what the path may show
again when a crash undoes a rename. -/
structure Directory (Byte : Type) where
  named : File Byte
  former : Set (List Byte)
  fresh : File Byte

def settled (bytes : List Byte) (fresh : File Byte) : Directory Byte :=
  ⟨⟨bytes, {bytes}⟩, ∅, fresh⟩

def Directory.apply (directory : Directory Byte) : Event Byte → Directory Byte
  | .cut size => { directory with
      named := ⟨directory.named.visible.take size,
        insert (directory.named.visible.take size) directory.named.surviving⟩ }
  | .cutFailed size => { directory with
      named := ⟨directory.named.visible,
        insert (directory.named.visible.take size) directory.named.surviving⟩ }
  | .syncNamed => { directory with
      named := ⟨directory.named.visible, {directory.named.visible}⟩ }
  | .create => { directory with fresh := ⟨[], Set.univ⟩ }
  | .createFailed => { directory with fresh := ⟨directory.fresh.visible, Set.univ⟩ }
  | .write bytes => { directory with fresh := ⟨directory.fresh.visible ++ bytes, Set.univ⟩ }
  | .writeFailed bytes landed => { directory with
      fresh := ⟨directory.fresh.visible ++ bytes.take landed, Set.univ⟩ }
  | .syncFresh => { directory with
      fresh := ⟨directory.fresh.visible, {directory.fresh.visible}⟩ }
  | .rename =>
    ⟨directory.fresh, directory.former ∪ directory.named.surviving, ⟨[], Set.univ⟩⟩
  | .syncDirectory => { directory with former := ∅ }
  | .syncNamedFailed | .syncFreshFailed | .renameFailed | .syncDirectoryFailed => directory

def Found (directory : Directory Byte) (bytes : List Byte) : Prop :=
  bytes = directory.named.visible ∨ bytes ∈ directory.named.surviving ∨ bytes ∈ directory.former

def Holds (allowed : Set (List Byte)) (directory : Directory Byte) : Prop :=
  ∀ bytes, Found directory bytes → bytes ∈ allowed

def Quiet : Event Byte → Prop
  | .cut _ | .cutFailed _ | .syncNamed | .rename | .syncDirectory => False
  | _ => True

variable (allowed : Set (List Byte)) (directory : Directory Byte)

theorem settled_holds (fresh : File Byte) (mem : bytes ∈ allowed) :
    Holds allowed (settled bytes fresh) := by
  rintro found (rfl | rfl | none)
  · exact mem
  · exact mem
  · exact absurd none (Set.notMem_empty found)

theorem holds_mono (subset : allowed ⊆ wider)
    (held : Holds allowed directory) : Holds wider directory :=
  fun bytes found => subset (held bytes found)

variable {event : Event Byte}

theorem quiet_found (quiet : Quiet event) (bytes : List Byte) :
    Found (directory.apply event) bytes ↔ Found directory bytes := by
  cases event with
  | cut | cutFailed | syncNamed | rename | syncDirectory => exact absurd quiet id
  | _ => rfl

theorem torn_quiet (interrupted : Torn event torn) (quiet : Quiet event) :
    Quiet torn := by
  cases interrupted <;> first | exact quiet | trivial

theorem quiet_holds (quiet : Quiet event) (held : Holds allowed directory) :
    Holds allowed (directory.apply event) :=
  fun bytes found => held bytes ((quiet_found directory quiet bytes).mp found)

theorem quiet_throughout (events : List (Event Byte)) (quiet : ∀ event ∈ events, Quiet event)
    (held : Holds allowed directory) :
    CrashTrace.Throughout Directory.apply Torn (Holds allowed) directory events := by
  refine CrashTrace.throughout_of_preserved Directory.apply Torn (Holds allowed) held ?_ ?_
  · intro event mem state kept
    exact quiet_holds allowed state (quiet event mem) kept
  · intro event mem torn interrupted state kept
    exact quiet_holds allowed state (torn_quiet interrupted (quiet event mem)) kept

theorem cut_holds (held : Holds allowed directory)
    (shorter : directory.named.visible.take size ∈ allowed) :
    Holds allowed (directory.apply (.cut size)) ∧
      Holds allowed (directory.apply (.cutFailed size)) := by
  constructor
  · rintro bytes (rfl | (rfl | survived) | undone)
    · exact shorter
    · exact shorter
    · exact held bytes (Or.inr (Or.inl survived))
    · exact held bytes (Or.inr (Or.inr undone))
  · rintro bytes (rfl | (rfl | survived) | undone)
    · exact held _ (Or.inl rfl)
    · exact shorter
    · exact held bytes (Or.inr (Or.inl survived))
    · exact held bytes (Or.inr (Or.inr undone))

theorem sync_named_holds (held : Holds allowed directory) :
    Holds allowed (directory.apply .syncNamed) := by
  rintro bytes (rfl | rfl | undone)
  · exact held _ (Or.inl rfl)
  · exact held _ (Or.inl rfl)
  · exact held bytes (Or.inr (Or.inr undone))

theorem rename_holds (held : Holds allowed directory)
    (whole : directory.fresh.visible ∈ allowed)
    (durable : directory.fresh.surviving ⊆ allowed) : Holds allowed (directory.apply .rename) := by
  rintro bytes (rfl | survived | older | survived)
  · exact whole
  · exact durable survived
  · exact held bytes (Or.inr (Or.inr older))
  · exact held bytes (Or.inr (Or.inl survived))

theorem sync_directory_holds (held : Holds allowed directory) :
    Holds allowed (directory.apply .syncDirectory) := by
  rintro bytes (rfl | survived | none)
  · exact held _ (Or.inl rfl)
  · exact held bytes (Or.inr (Or.inl survived))
  · exact absurd none (Set.notMem_empty bytes)

end CrashDirectory
