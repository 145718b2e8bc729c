import Mathlib

/-!
A data file written by position and a log written by appending, under crashes.
A byte of the data file that was written since the last successful sync may
survive a crash with any value it has held since then. The log survives with
its synced part and any leading part of what was appended later. A crash can
also fall inside one event, which then counts as its interrupted form.
-/

namespace CrashDisk

variable {Byte : Type}

inductive Event (Byte : Type) where
  | write (offset : Nat) (bytes : List Byte)
  | writeFailed (offset : Nat) (bytes : List Byte) (landed : Nat → Bool)
  | syncData
  | syncDataFailed
  | append (bytes : List Byte)
  | appendFailed (bytes : List Byte) (landed : Nat)
  | syncLog
  | syncLogFailed

inductive Interrupted : Event Byte → Event Byte → Prop where
  | write (offset : Nat) (bytes : List Byte) (landed : Nat → Bool) :
      Interrupted (.write offset bytes) (.writeFailed offset bytes landed)
  | writeFailed (offset : Nat) (bytes : List Byte) (before landed : Nat → Bool) :
      Interrupted (.writeFailed offset bytes before) (.writeFailed offset bytes landed)
  | syncData : Interrupted .syncData .syncDataFailed
  | syncDataFailed : Interrupted .syncDataFailed .syncDataFailed
  | append (bytes : List Byte) (landed : Nat) :
      Interrupted (.append bytes) (.appendFailed bytes landed)
  | appendFailed (bytes : List Byte) (before landed : Nat) :
      Interrupted (.appendFailed bytes before) (.appendFailed bytes landed)
  | syncLog : Interrupted .syncLog .syncLogFailed
  | syncLogFailed : Interrupted .syncLogFailed .syncLogFailed

structure Disk (Byte : Type) where
  visible : Nat → Byte
  surviving : Nat → Set Byte
  durableLog : List Byte
  pendingLog : List Byte

def placed (offset : Nat) (bytes : List Byte) (pos : Nat) : Option Byte :=
  if offset ≤ pos then bytes[pos - offset]? else none

def Disk.log (disk : Disk Byte) : List Byte := disk.durableLog ++ disk.pendingLog

def Disk.apply (disk : Disk Byte) : Event Byte → Disk Byte
  | .write offset bytes => { disk with
      visible := fun pos => (placed offset bytes pos).getD (disk.visible pos)
      surviving := fun pos =>
        disk.surviving pos ∪ {byte | placed offset bytes pos = some byte} }
  | .writeFailed offset bytes landed => { disk with
      visible := fun pos => if landed (pos - offset) then
        (placed offset bytes pos).getD (disk.visible pos) else disk.visible pos
      surviving := fun pos =>
        disk.surviving pos ∪ {byte | placed offset bytes pos = some byte} }
  | .syncData => { disk with surviving := fun pos => {disk.visible pos} }
  | .syncDataFailed => disk
  | .append bytes => { disk with pendingLog := disk.pendingLog ++ bytes }
  | .appendFailed bytes landed => { disk with pendingLog := disk.pendingLog ++ bytes.take landed }
  | .syncLog => { disk with durableLog := disk.durableLog ++ disk.pendingLog, pendingLog := [] }
  | .syncLogFailed => disk

def Disk.run (disk : Disk Byte) (events : List (Event Byte)) : Disk Byte :=
  events.foldl Disk.apply disk

/-- What can be found after a crash of `disk`: data-file bytes and a log. -/
structure Survives (disk : Disk Byte) (file : Nat → Byte) (log : List Byte) : Prop where
  bytes : ∀ pos, file pos ∈ disk.surviving pos
  log : ∃ kept, kept <+: disk.pendingLog ∧ log = disk.durableLog ++ kept

/-- The disk at a crash between two events of `trace`, or inside one. -/
inductive CrashPoint (disk : Disk Byte) (trace : List (Event Byte)) : Disk Byte → Prop where
  | between (before after : List (Event Byte)) (cut : trace = before ++ after) :
      CrashPoint disk trace (disk.run before)
  | inside (before after : List (Event Byte)) (event torn : Event Byte)
      (cut : trace = before ++ event :: after) (interrupted : Interrupted event torn) :
      CrashPoint disk trace ((disk.run before).apply torn)

/-- `safe` holds before, inside and after every event of the list. -/
def Throughout (safe : Disk Byte → Prop) : Disk Byte → List (Event Byte) → Prop
  | disk, [] => safe disk
  | disk, event :: rest =>
    safe disk ∧ (∀ torn, Interrupted event torn → safe (disk.apply torn)) ∧
      Throughout safe (disk.apply event) rest

@[simp]
theorem run_append (disk : Disk Byte) (left right : List (Event Byte)) :
    disk.run (left ++ right) = (disk.run left).run right :=
  List.foldl_append

theorem throughout_append (safe : Disk Byte → Prop) (disk : Disk Byte)
    (left right : List (Event Byte)) (first : Throughout safe disk left)
    (second : Throughout safe (disk.run left) right) : Throughout safe disk (left ++ right) := by
  induction left generalizing disk with
  | nil => exact second
  | cons event rest ih => exact ⟨first.1, first.2.1, ih _ first.2.2 second⟩

variable {disk : Disk Byte} {offset pos : Nat} {bytes : List Byte} {event : Event Byte}

theorem throughout_start (held : Throughout safe disk events) : safe disk := by
  cases events with
  | nil => exact held
  | cons event rest => exact held.1

theorem throughout_end (safe : Disk Byte → Prop) (disk : Disk Byte) (events : List (Event Byte))
    (held : Throughout safe disk events) : safe (disk.run events) := by
  induction events generalizing disk with
  | nil => exact held
  | cons event rest ih => exact ih _ held.2.2

theorem throughout_crash (safe : Disk Byte → Prop) (disk crashed : Disk Byte)
    (trace : List (Event Byte)) (held : Throughout safe disk trace)
    (point : CrashPoint disk trace crashed) : safe crashed := by
  cases point with
  | between before after cut =>
    subst cut
    induction before generalizing disk with
    | nil => exact throughout_start held
    | cons event rest ih => exact ih _ held.2.2
  | inside before after event torn cut interrupted =>
    subst cut
    induction before generalizing disk with
    | nil => exact held.2.1 torn interrupted
    | cons event rest ih => exact ih _ held.2.2

/-! Reading back written bytes. -/

theorem placed_inside (offset : Nat) (bytes : List Byte) (index : Nat) :
    placed offset bytes (offset + index) = bytes[index]? := by
  simp [placed]

theorem placed_some (found : placed offset bytes pos = some byte) :
    offset ≤ pos ∧ pos < offset + bytes.length := by
  unfold placed at found
  split at found
  next after =>
    obtain ⟨inside, _⟩ := List.getElem?_eq_some_iff.mp found
    exact ⟨after, by omega⟩
  next before => cases found

theorem placed_outside (offset : Nat) (bytes : List Byte) (pos : Nat)
    (outside : pos < offset ∨ offset + bytes.length ≤ pos) :
    placed offset bytes pos = none := by
  cases found : placed offset bytes pos with
  | none => rfl
  | some byte =>
    have inside := placed_some found
    omega

/-! A data file that is filled from one source. -/

/-- What the event puts into the data file are bytes of the source at their place. -/
def Copies (source : List Byte) : Event Byte → Prop
  | .write offset bytes | .writeFailed offset bytes _ => bytes <+: source.drop offset
  | _ => True

def Written (events : List (Event Byte)) (pos : Nat) : Prop :=
  ∃ offset bytes, Event.write offset bytes ∈ events ∧ offset ≤ pos ∧
    pos < offset + bytes.length

theorem written_append (left right : List (Event Byte)) (pos : Nat) :
    Written (left ++ right) pos ↔ Written left pos ∨ Written right pos := by
  constructor
  · rintro ⟨offset, bytes, mem, inside⟩
    exact (List.mem_append.mp mem).imp (fun found => ⟨offset, bytes, found, inside⟩)
      fun found => ⟨offset, bytes, found, inside⟩
  · rintro (⟨offset, bytes, mem, inside⟩ | ⟨offset, bytes, mem, inside⟩)
    · exact ⟨offset, bytes, List.mem_append_left _ mem, inside⟩
    · exact ⟨offset, bytes, List.mem_append_right _ mem, inside⟩

theorem placed_source (source : List Byte) (copied : bytes <+: source.drop offset)
    (found : placed offset bytes pos = some byte) :
    source[pos]? = some byte := by
  obtain ⟨after, _⟩ := placed_some found
  rw [placed, if_pos after] at found
  obtain ⟨rest, whole⟩ := copied
  have dropped : (source.drop offset)[pos - offset]? = some byte := by
    rw [← whole]
    exact (List.getElem?_append_left (List.getElem?_eq_some_iff.mp found).1).trans found
  rwa [List.getElem?_drop, Nat.add_sub_cancel' after] at dropped

theorem copies_keeps (copies : Copies source event)
    (right : source[pos]? = some (disk.visible pos)) :
    source[pos]? = some ((disk.apply event).visible pos) := by
  cases event with
  | write offset bytes =>
    cases found : placed offset bytes pos with
    | none => simpa [Disk.apply, found] using right
    | some byte =>
      simpa [Disk.apply, found] using placed_source source copies found
  | writeFailed offset bytes landed =>
    cases found : placed offset bytes pos with
    | none => simpa [Disk.apply, found] using right
    | some byte =>
      have copied := placed_source source copies found
      by_cases landing : landed (pos - offset) = true
      · simpa [Disk.apply, found, landing] using copied
      · simpa [Disk.apply, found, landing] using right
  | _ => exact right

theorem copies_run (disk : Disk Byte) (copies : ∀ event ∈ events, Copies source event)
    (right : source[pos]? = some (disk.visible pos)) :
    source[pos]? = some ((disk.run events).visible pos) := by
  induction events generalizing disk with
  | nil => exact right
  | cons event rest ih =>
    have first := copies_keeps (copies event List.mem_cons_self) right
    exact ih (disk.apply event) (fun other mem => copies other (List.mem_cons_of_mem _ mem))
      first

theorem copies_shows (disk : Disk Byte)
    (copies : ∀ event ∈ events, Copies source event) (written : Written events pos) :
    source[pos]? = some ((disk.run events).visible pos) := by
  obtain ⟨offset, bytes, mem, after, before⟩ := written
  obtain ⟨earlier, later, rfl⟩ := List.append_of_mem mem
  have placed : placed offset bytes pos = bytes[pos - offset]? := if_pos after
  have inside : pos - offset < bytes.length := by omega
  rw [List.getElem?_eq_getElem inside] at placed
  rw [run_append]
  have copied := placed_source source
    (copies _ (List.mem_append_right _ List.mem_cons_self)) placed
  refine copies_run ((disk.run earlier).apply (.write offset bytes)) ?_ ?_
  · exact fun event found => copies event (List.mem_append_right _ (List.mem_cons_of_mem _ found))
  · simpa [Disk.apply, placed] using copied

def Shows (disk : Disk Byte) (offset : Nat) (bytes : List Byte) : Prop :=
  ∀ pos byte, placed offset bytes pos = some byte → disk.visible pos = byte

/-- The bytes at `offset` are `bytes` and no crash can change them. -/
structure Settled (disk : Disk Byte) (offset : Nat) (bytes : List Byte) : Prop where
  shows : Shows disk offset bytes
  fixed : ∀ pos byte, placed offset bytes pos = some byte →
    disk.surviving pos ⊆ {byte}

def Touches : Event Byte → Nat → Prop
  | .write offset bytes, pos | .writeFailed offset bytes _, pos =>
    offset ≤ pos ∧ pos < offset + bytes.length
  | _, _ => False

def KeepsData : Event Byte → Prop
  | .write _ _ | .writeFailed _ _ _ => False
  | _ => True

theorem keeps_untouched (keeps : KeepsData event) (pos : Nat) :
    ¬ Touches event pos := by
  cases event with
  | write offset bytes => exact keeps.elim
  | writeFailed offset bytes landed => exact keeps.elim
  | _ => exact id

theorem untouched_placed (untouched : ¬ Touches (.write offset bytes) pos) :
    placed offset bytes pos = none :=
  placed_outside offset bytes pos (by simp only [Touches] at untouched; omega)

theorem untouched_visible (disk : Disk Byte) (untouched : ¬ Touches event pos) :
    (disk.apply event).visible pos = disk.visible pos := by
  cases event with
  | write offset bytes => simp [Disk.apply, untouched_placed untouched]
  | writeFailed offset bytes landed => simp [Disk.apply, untouched_placed untouched]
  | _ => rfl

theorem untouched_run (disk : Disk Byte) (untouched : ∀ event ∈ events, ¬ Touches event pos) :
    (disk.run events).visible pos = disk.visible pos := by
  induction events generalizing disk with
  | nil => rfl
  | cons event rest ih =>
    have later := ih (disk.apply event) fun other mem =>
      untouched other (List.mem_cons_of_mem _ mem)
    exact later.trans (untouched_visible disk (untouched event List.mem_cons_self))

theorem untouched_surviving (disk : Disk Byte)
    (untouched : ¬ Touches event pos) (unsynced : event ≠ .syncData) :
    (disk.apply event).surviving pos = disk.surviving pos := by
  cases event with
  | write offset bytes => simp [Disk.apply, untouched_placed untouched]
  | writeFailed offset bytes landed => simp [Disk.apply, untouched_placed untouched]
  | syncData => exact absurd rfl unsynced
  | _ => rfl

def Avoids (event : Event Byte) (offset : Nat) (bytes : List Byte) : Prop :=
  ∀ pos, Touches event pos → placed offset bytes pos = none

theorem write_shows (disk : Disk Byte) (offset : Nat) (bytes : List Byte) :
    Shows (disk.apply (.write offset bytes)) offset bytes := by
  intro pos byte found
  simp [Disk.apply, found]

theorem avoids_shows (avoids : Avoids event offset bytes) (shows : Shows disk offset bytes) :
    Shows (disk.apply event) offset bytes := by
  intro pos byte found
  rw [untouched_visible]
  · exact shows pos byte found
  · intro touched
    rw [avoids pos touched] at found
    cases found

theorem sync_settles (shows : Shows disk offset bytes) :
    Settled (disk.apply .syncData) offset bytes := by
  refine ⟨shows, ?_⟩
  intro pos byte found
  have read := shows pos byte found
  simp [Disk.apply, read]

theorem avoids_settled (avoids : Avoids event offset bytes) (settled : Settled disk offset bytes) :
    Settled (disk.apply event) offset bytes := by
  by_cases syncs : event = .syncData
  · rw [syncs]
    exact sync_settles settled.shows
  · refine ⟨avoids_shows avoids settled.shows, ?_⟩
    intro pos byte found
    rw [untouched_surviving disk _ syncs]
    · exact settled.fixed pos byte found
    · intro touched
      rw [avoids pos touched] at found
      cases found

theorem survives_settled (settled : Settled disk offset bytes)
    (survives : Survives disk file log) (inside : index < bytes.length) :
    file (offset + index) = bytes[index] := by
  have found : placed offset bytes (offset + index) = some bytes[index] := by
    rw [placed_inside, List.getElem?_eq_getElem inside]
  exact settled.fixed _ _ found (survives.bytes _)

end CrashDisk
