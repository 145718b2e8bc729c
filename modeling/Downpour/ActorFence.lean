import Downpour.ActorSafety

/-!
What a worker can still write after it was abandoned. The actor compares a write
with current ownership only, and a grant carries no generation. So a handle that
was created before the abandonment stays refused exactly until a later allocation
gives the same bytes back to the same worker id; from then on the stale handle
writes as if it were the new one.
-/

namespace Downpour.ActorFence
open Segments Intervals JournalFormat Allocator Writer CrashDisk Actor ActorSafety

section Runs
variable (blake3 : List UInt8 → Digest) (crc32c : List UInt8 → UInt32)

/-- Serving the command hands the byte out to the worker. -/
def Hands (worker : WorkerId) (pos : Nat) (command : Command)
    (reply : Except WriterServiceError Receipt) : Prop :=
  command = .allocate worker ∧ ∃ allocation durable,
    reply = .ok (.allocation (some allocation) durable) ∧ Inside allocation.grant.range pos

/-- An `Abandon` of the worker succeeds. -/
def Released (worker : WorkerId) : Service → List (Command × StageIo) → Prop
  | _, [] => False
  | service, (command, io) :: rest =>
    (command = .abandon worker ∧
      ∃ receipt, (service.serve blake3 crc32c command io).1 = .ok receipt) ∨
    Released worker (service.serve blake3 crc32c command io).2 rest

/-- An `Allocate` hands the byte out to the worker, and it is not released again. -/
def HandedOut (worker : WorkerId) (pos : Nat) : Service → List (Command × StageIo) → Prop
  | _, [] => False
  | service, (command, io) :: rest =>
    (Hands worker pos command (service.serve blake3 crc32c command io).1 ∧
      ¬ Released blake3 crc32c worker (service.serve blake3 crc32c command io).2 rest) ∨
    HandedOut worker pos (service.serve blake3 crc32c command io).2 rest

def Unowned (actor : StateActor) (worker : WorkerId) (pos : Nat) : Prop :=
  actor.allocator.intervals.stateAt pos ≠ some (.inProgress worker)

variable {worker : WorkerId} {pos : Nat}

theorem settles_unowned
    (settles : Settles actor after durable) (unowned : Unowned actor worker pos) :
    Unowned after worker pos := by
  cases settles with
  | kept writer same => exact unowned
  | committed writer next sequence empty owned =>
    have completes := complete_all_completes _ next _ owned
    intro held
    by_cases covered : ∃ block ∈ actor.writer.staged, Inside block.range pos
    · obtain ⟨block, mem, inside⟩ := covered
      rw [completes.completed block mem pos inside.1 inside.2] at held
      cases held
    · rw [completes.others pos fun block mem inside => covered ⟨block, mem, inside⟩]
        at held
      exact unowned held

theorem handle_unowned
    (ended : HandleEnd blake3 actor command served) (unowned : Unowned actor worker pos)
    (elsewhere : ¬ Hands worker pos command served.reply) :
    Unowned served.actor worker pos := by
  cases ended with
  | settled _ _ settles => exact settles_unowned settles unowned
  | staged other offset bytes now _ ready settles =>
    exact settles_unowned settles unowned
  | allocated recipient fence durable settles empty allocation next found =>
    have before := settles_unowned settles unowned
    have ended := fence.allocator.allocate_end recipient
    rw [found] at ended
    -- The recipient is another worker, or the byte lies outside the range it was given.
    have moved : ∀ (range : Range) (shortened : Option Grant) (source : IntervalState)
        (after : IntervalMap), allocation = some ⟨⟨recipient, range⟩, shortened⟩ →
        IntervalMap.Moves fence.allocator.intervals range source (.inProgress recipient) after →
        after.stateAt pos ≠ some (.inProgress worker) := by
      intro range shortened source after given moves held
      rw [moves.reads] at held
      split at held
      next inside =>
        cases held
        exact elsewhere ⟨rfl, _, durable, by rw [given], inside⟩
      next => exact before held
    cases ended with
    | none => exact before
    | granted _ _ _ _ after moves => exact moved _ _ _ after rfl moves
    | split _ _ _ _ _ _ _ after moves => exact moved _ _ _ after rfl moves
  | abandoned other fence durable settles empty =>
    have before := settles_unowned settles unowned
    intro held
    have state := fence.allocator.intervals.abandon_state other pos
    simp only [SegmentAllocator.abandon] at held
    rw [state] at held
    split at held
    · cases held
    · exact before held

theorem serve_unowned (service : Service) (command : Command) (io : StageIo)
    (unowned : Unowned service.actor worker pos)
    (elsewhere : ¬ Hands worker pos command (service.serve blake3 crc32c command io).1) :
    Unowned (service.serve blake3 crc32c command io).2.actor worker pos := by
  unfold Service.serve at elsewhere ⊢
  split
  next => exact unowned
  next running =>
    rw [if_neg running] at elsewhere
    exact handle_unowned blake3 (handle_end blake3 crc32c _ _ io) unowned elsewhere

theorem abandoned_unowned (service : Service)
    (abandoned : (service.serve blake3 crc32c (.abandon worker) io).1 = .ok receipt) (pos : Nat) :
    Unowned (service.serve blake3 crc32c (.abandon worker) io).2.actor worker pos := by
  unfold Service.serve at abandoned ⊢
  split at abandoned
  · cases abandoned
  next running =>
    rw [if_neg running]
    simp only [StateActor.handle] at abandoned ⊢
    rcases abandon_end crc32c service.actor worker io.flush with ⟨error, failed, _⟩ |
      ⟨fence, durable, events, _, _, served⟩
    · rw [failed] at abandoned
      cases abandoned
    · rw [served]
      intro held
      simp only [SegmentAllocator.abandon] at held
      rw [IntervalMap.abandon_state] at held
      split at held
      · cases held
      next other => exact other held

/-- A byte that is not the worker's, or will be released again, is not the worker's in the
end unless it is handed out. -/
theorem run_unowned {commands : List (Command × StageIo)} {service : Service}
    (unowned : Unowned service.actor worker pos ∨ Released blake3 crc32c worker service commands)
    (elsewhere : ¬ HandedOut blake3 crc32c worker pos service commands) :
    Unowned (service.run blake3 crc32c commands).actor worker pos := by
  induction commands generalizing service with
  | nil => exact unowned.resolve_right id
  | cons next rest ih =>
    obtain ⟨command, io⟩ := next
    rw [HandedOut, not_or, not_and_not_right] at elsewhere
    refine ih ?_ elsewhere.2
    rcases unowned with here | ⟨rfl, receipt, abandoned⟩ | later
    · by_cases hands : Hands worker pos command (service.serve blake3 crc32c command io).1
      · exact Or.inr (elsewhere.1 hands)
      · exact Or.inl (serve_unowned blake3 crc32c service command io here hands)
    · exact Or.inl (abandoned_unowned blake3 crc32c service abandoned pos)
    · exact Or.inr later

theorem unowned_refused (service : Service) (worker : WorkerId) (offset : Nat) (bytes : List UInt8)
    (now : Nat) (io : StageIo)
    (unowned : bytes = [] ∨ ∃ pos, Inside ⟨offset, offset + bytes.length⟩ pos ∧
      Unowned service.actor worker pos) :
    ∃ error, service.serve blake3 crc32c (.write worker offset bytes now) io =
      (.error error, service) := by
  by_cases stopped : service.stopped = true
  · exact ⟨.actorStopped, by rw [Service.serve, if_pos stopped]⟩
  have refused : ∃ error, service.actor.write blake3 crc32c worker offset bytes now io =
      service.actor.refuse error := by
    unfold StateActor.write
    by_cases overflow : offset + bytes.length ≥ 2 ^ 64
    · exact ⟨_, if_pos overflow⟩
    rw [if_neg overflow]
    cases completed : service.actor.allocator.intervals.complete
        ⟨offset, offset + bytes.length⟩ worker with
    | error error => exact ⟨_, rfl⟩
    | ok after =>
      have moves := IntervalMap.complete_moves _ after _ worker completed
      rcases unowned with rfl | ⟨pos, inside, other⟩
      · exact absurd moves.ordered (by simp)
      · exact absurd (moves.held pos inside.1 inside.2) other
  obtain ⟨error, refused⟩ := refused
  exact ⟨error, serve_refused blake3 crc32c (Bool.not_eq_true _ ▸ stopped) (by simp)
    refused⟩

/-- After a successful `Abandon`, every write through a handle of that worker is
refused without any effect, unless all its bytes were handed to the worker again and
not released since. The handle may be older than the `Abandon`. -/
theorem revoked_write_refused (service : Service) (worker : WorkerId) (fence : StageIo)
    (receipt : Receipt)
    (abandoned : (service.serve blake3 crc32c (.abandon worker) fence).1 = .ok receipt)
    (later : List (Command × StageIo)) (handle : GrantWriter) (owner : handle.grant.worker = worker)
    (bytes : List UInt8) (now : Nat) (command : Command) (sent : handle.write bytes now = .ok command)
    (revoked : bytes = [] ∨ ∃ pos,
      Inside ⟨handle.nextOffset, handle.nextOffset + bytes.length⟩ pos ∧
      ¬ HandedOut blake3 crc32c worker pos
        (service.serve blake3 crc32c (.abandon worker) fence).2 later)
    (io : StageIo) :
    let reached := (service.serve blake3 crc32c (.abandon worker) fence).2.run blake3 crc32c later
    ∃ error, reached.serve blake3 crc32c command io = (.error error, reached) := by
  intro reached
  have shape : command = .write worker handle.nextOffset bytes now := by
    unfold GrantWriter.write at sent
    split_ifs at sent
    cases sent
    rw [owner]
  rw [shape]
  apply unowned_refused
  rcases revoked with empty | ⟨pos, inside, elsewhere⟩
  · exact Or.inl empty
  · refine Or.inr ⟨pos, inside, ?_⟩
    exact run_unowned blake3 crc32c
      (Or.inl (abandoned_unowned blake3 crc32c service abandoned pos)) elsewhere

end Runs

def wholeGrant : Grant := ⟨0, ⟨0, 4⟩⟩

/-- The bytes are handed out once more and released again before another worker has them. -/
theorem revoked_write_refused_small :
    let granted := (fourBytes.serve calmDigest calmChecksum (.allocate 0) calmIo).2
    let later := [(.allocate 0, calmIo), (.abandon 0, calmIo), (.allocate 1, calmIo)]
    let reached := (granted.serve calmDigest calmChecksum (.abandon 0) calmIo).2.run calmDigest
      calmChecksum later
    (fourBytes.serve calmDigest calmChecksum (.allocate 0) calmIo).1 =
        .ok (.allocation (some ⟨wholeGrant, none⟩) []) ∧
      ∃ error, reached.serve calmDigest calmChecksum (.write 0 0 [7] 0) calmIo =
        (.error error, reached) := by
  intro granted later reached
  have released : Released calmDigest calmChecksum 0
      ((granted.serve calmDigest calmChecksum (.abandon 0) calmIo).2.serve calmDigest calmChecksum
        (.allocate 0) calmIo).2 [(.abandon 0, calmIo), (.allocate 1, calmIo)] :=
    Or.inl ⟨rfl, .abandon 4 [], by decide +kernel⟩
  have elsewhere : ¬ HandedOut calmDigest calmChecksum 0 0
      (granted.serve calmDigest calmChecksum (.abandon 0) calmIo).2 later := by
    rintro (⟨_, held⟩ | ⟨⟨other, _⟩, _⟩ | ⟨⟨other, _⟩, _⟩ | none)
    · exact held released
    · cases other
    · exact absurd other (by decide)
    · exact none
  exact ⟨by decide +kernel,
    revoked_write_refused calmDigest calmChecksum granted 0 calmIo (.abandon 4 []) (by decide +kernel)
      later (writerFor wholeGrant) rfl [7] 0 _ (by decide +kernel)
      (Or.inr ⟨0, by decide, elsewhere⟩) calmIo⟩

/-- The bytes of an abandoned grant are allocated to the same worker again, and
the handle of the first grant writes one of them. -/
theorem stale_handle_writes :
    (fourBytes.serve calmDigest calmChecksum (.allocate 0) calmIo).1 =
        .ok (.allocation (some ⟨wholeGrant, none⟩) []) ∧
      ((fourBytes.run calmDigest calmChecksum [(.allocate 0, calmIo)]).serve calmDigest calmChecksum
        (.abandon 0) calmIo).1 = .ok (.abandon 4 []) ∧
      (writerFor wholeGrant).write [7] 0 = .ok (.write 0 0 [7] 0) ∧
      ((fourBytes.run calmDigest calmChecksum
          [(.allocate 0, calmIo), (.abandon 0, calmIo), (.allocate 0, calmIo)]).serve
        calmDigest calmChecksum (.write 0 0 [7] 0) calmIo).1 = .ok (.write ⟨0, 1⟩ []) := by
  decide +kernel

end Downpour.ActorFence
