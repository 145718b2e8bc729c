import Mathlib

/-!
Crashes of any machine that works through a list of events. A crash falls
between two events or inside one; an event cut short counts as one of its torn
forms.
-/

namespace CrashTrace

variable {State Event : Type} (apply : State → Event → State) (Torn : Event → Event → Prop)

def run (state : State) (events : List Event) : State := events.foldl apply state

/-- The state at a crash between two events of `trace`, or inside one. -/
inductive CrashPoint (state : State) (trace : List Event) : State → Prop where
  | between (before after : List Event) (cut : trace = before ++ after) :
      CrashPoint state trace (run apply state before)
  | inside (before after : List Event) (event torn : Event)
      (cut : trace = before ++ event :: after) (interrupted : Torn event torn) :
      CrashPoint state trace (apply (run apply state before) torn)

/-- `safe` holds before, inside and after every event of the list. -/
def Throughout (safe : State → Prop) : State → List Event → Prop
  | state, [] => safe state
  | state, event :: rest =>
    safe state ∧ (∀ torn, Torn event torn → safe (apply state torn)) ∧
      Throughout safe (apply state event) rest

variable (safe : State → Prop)

theorem throughout_append (state : State) (left right : List Event)
    (first : Throughout apply Torn safe state left)
    (second : Throughout apply Torn safe (run apply state left) right) :
    Throughout apply Torn safe state (left ++ right) := by
  induction left generalizing state with
  | nil => exact second
  | cons event rest ih => exact ⟨first.1, first.2.1, ih _ first.2.2 second⟩

theorem throughout_mono (weaker : State → Prop) (implies : ∀ state, safe state → weaker state)
    (held : Throughout apply Torn safe state events) :
    Throughout apply Torn weaker state events := by
  induction events generalizing state with
  | nil => exact implies state held
  | cons event rest ih =>
    exact ⟨implies state held.1, fun torn interrupted => implies _ (held.2.1 torn interrupted),
      ih held.2.2⟩

theorem throughout_end (state : State) (events : List Event)
    (held : Throughout apply Torn safe state events) : safe (run apply state events) := by
  induction events generalizing state with
  | nil => exact held
  | cons event rest ih => exact ih _ held.2.2

theorem throughout_of_preserved (initial : safe state)
    (whole : ∀ event ∈ events, ∀ state, safe state → safe (apply state event))
    (torn : ∀ event ∈ events, ∀ torn, Torn event torn → ∀ state, safe state →
      safe (apply state torn)) : Throughout apply Torn safe state events := by
  induction events generalizing state with
  | nil => exact initial
  | cons event rest ih =>
    refine ⟨initial, ?_, ?_⟩
    · intro short interrupted
      exact torn event List.mem_cons_self short interrupted state initial
    · exact ih (whole event List.mem_cons_self state initial)
        (fun other mem => whole other (List.mem_cons_of_mem event mem))
        (fun other mem => torn other (List.mem_cons_of_mem event mem))

theorem throughout_crash (state crashed : State) (trace : List Event)
    (held : Throughout apply Torn safe state trace)
    (point : CrashPoint apply Torn state trace crashed) : safe crashed := by
  cases point with
  | between before after cut =>
    subst cut
    induction before generalizing state with
    | nil =>
      cases after with
      | nil => exact held
      | cons event rest => exact held.1
    | cons event rest ih => exact ih _ held.2.2
  | inside before after event torn cut interrupted =>
    subst cut
    induction before generalizing state with
    | nil => exact held.2.1 torn interrupted
    | cons event rest ih => exact ih _ held.2.2

end CrashTrace
