import Teleop.Analytics.Recorder

/-!
# What is in the file at shutdown

The storage thread looks at the stop flag after a drain that found nothing.  A frame pushed
between the two, with the flag set before the look, stays in the ring; otherwise the closed
file holds every frame that was accepted.
-/

namespace Teleop.Analytics.Recorder

open Teleop.Lib Teleop.Ring FdrEntry

section Ring

variable {layout : Threads.Layout} {ring target : Threads.State FdrEntry}

/-- The producer's steps leave the consumer's side alone. -/
theorem push_keeps {e : FdrEntry} (stepped : Threads.next layout ring (.push e) = some target) :
    target.popped = ring.popped ∧ target.consumer = ring.consumer := by
  obtain ⟨_, rfl⟩ := Threads.next_push stepped
  exact ⟨rfl, rfl⟩

theorem producer_keeps (stepped : Threads.next layout ring .producer = some target) :
    target.popped = ring.popped ∧ target.consumer = ring.consumer := by
  cases Threads.produces_of_step stepped with
  | loadTail | full | room | write | storeTail => exact ⟨rfl, rfl⟩

/-- The consumer's steps leave the producer's side alone. -/
theorem consumer_keeps (stepped : Threads.next layout ring .consumer = some target) :
    target.accepted = ring.accepted ∧ target.producer = ring.producer := by
  cases Threads.consumes_of_step stepped with
  | loadHead | empty | occupied | read | storeHead => exact ⟨rfl, rfl⟩

/-- What a step of a pop returns. -/
inductive Pops (ring target : Threads.State FdrEntry) : Prop
  | inside : target.output = none → target.popped = ring.popped → Pops ring target
  | empty : target.output = some (.popped none) → target.popped = ring.popped →
      target.consumer = .idle → ring.popped = ring.accepted → Pops ring target
  | taken {e : FdrEntry} : target.output = some (.popped (some e)) →
      target.popped = ring.popped ++ [e] → target.consumer = .idle → Pops ring target

theorem popped_eq_of_empty (rounded : layout.Rounded) (fifo : Threads.Fifo layout 0 ring)
    (empty : cursor ring.head = cursor ring.tail) : ring.popped = ring.accepted :=
  fifo.inOrder.eq_of_length ((fifo.empty_iff rounded).mp empty).symm

theorem pops_of_consumer (rounded : layout.Rounded) (fifo : Threads.Fifo layout 0 ring)
    (stepped : Threads.next layout ring .consumer = some target) : Pops ring target := by
  have holds := fifo.consumer
  cases Threads.consumes_of_step stepped with
  | loadHead | occupied | read => exact .inside rfl rfl
  | empty stage same =>
      simp only [Threads.ConsumerHolds, stage] at holds
      rw [holds] at same
      exact .empty rfl rfl rfl (popped_eq_of_empty rounded fifo same)
  | storeHead => exact .taken rfl rfl rfl

end Ring

variable {B E : Type} {backend : Backend B E} {layout : Threads.Layout} {memory : AlignedBuf}
  {rec target : Recorder B E}

/-- What is in the file at each stage of the storage thread. -/
def FileHolds (backend : Backend B E) (rec : Recorder B E) : Prop :=
  match rec.storage with
  | .draining _ | .checking | .closing => rec.file.Settled backend (frames rec.ring.popped)
  | .writing _ e => ∃ written, rec.ring.popped = written ++ [e] ∧
      rec.file.Settled backend (frames written)
  | .finished (.ok _) => rec.file.Settled backend (FdrWriter.image rec.ring.popped) ∧
      rec.file.stagingLen = 0
  | .finished (.error _) => True

/-- The ring is first in, first out and popped only in a drain; the file holds what was
popped; after the stop the producer rests, and before it the storage thread does not close. -/
structure Holds (backend : Backend B E) (layout : Threads.Layout) (rec : Recorder B E) : Prop where
  fifo : Threads.Fifo layout 0 rec.ring
  popping : (∀ n, rec.storage ≠ .draining n) → rec.ring.consumer = .idle
  file : FileHolds backend rec
  resting : rec.stop = true → rec.ring.producer = .idle
  running : rec.stop = false → rec.storage ≠ .closing ∧ ∀ total, rec.storage ≠ .finished (.ok total)
  returned : ∀ result, rec.returned = some result → rec.storage = .finished result

theorem holds_openRecorder : Holds backend layout (openRecorder backend memory) where
  fifo := Threads.fifo_startAt
  popping _ := rfl
  file := DirectFile.settled_openFile memory
  resting _ := rfl
  running _ := by simp [openRecorder]
  returned := by simp [openRecorder]

/-- Steps of the ring that pop nothing leave the file as it has to be. -/
theorem FileHolds.ring (holds : FileHolds backend rec) {ring : Threads.State FdrEntry}
    (popped : ring.popped = rec.ring.popped) : FileHolds backend { rec with ring := ring } := by
  unfold FileHolds at holds ⊢
  dsimp only
  rw [popped]
  exact holds

/-- A frame that was popped is written before the next pop. -/
theorem Holds.afterPop (rounded : layout.Rounded) (holds : Holds backend layout rec) {n : Nat}
    (stage : rec.storage = .draining n) {ring : Threads.State FdrEntry}
    (stepped : Threads.next layout rec.ring .consumer = some ring) :
    Holds backend layout
      { rec with ring := ring, storage := Recorder.afterPop n ring.output } := by
  obtain ⟨-, resting⟩ := consumer_keeps stepped
  have settled : rec.file.Settled backend (frames rec.ring.popped) := by
    have file := holds.file
    unfold FileHolds at file
    rwa [stage] at file
  have fresh : ∀ result, rec.returned ≠ some result := by
    intro result given
    have done := holds.returned result given
    rw [stage] at done
    cases done
  have still : rec.stop = true → ring.producer = .idle := fun stopped =>
    resting.trans (holds.resting stopped)
  have next := holds.fifo.next rounded stepped
  cases pops_of_consumer rounded holds.fifo stepped with
  | inside output popped =>
      rw [output]
      refine ⟨next, fun outside => absurd rfl (outside n), ?_, still, by simp [Recorder.afterPop],
        fun result given => absurd given (fresh result)⟩
      unfold FileHolds
      simp only [Recorder.afterPop, popped]
      exact settled
  | empty output popped idle _ =>
      rw [output]
      refine ⟨next, fun _ => idle, ?_, still, fun _ => ?_,
        fun result given => absurd given (fresh result)⟩
      · unfold FileHolds
        by_cases first : n = 0
        · simp only [Recorder.afterPop, if_pos first, popped]
          exact settled
        · simp only [Recorder.afterPop, if_neg first, popped]
          exact settled
      · by_cases first : n = 0
        · simp [Recorder.afterPop, first]
        · simp [Recorder.afterPop, first]
  | taken output popped idle =>
      rw [output]
      refine ⟨next, fun _ => idle, ?_, still, by simp [Recorder.afterPop],
        fun result given => absurd given (fresh result)⟩
      exact ⟨rec.ring.popped, popped, settled⟩

/-- After the stop no push is in progress. -/
theorem Holds.rests (holds : Holds backend layout rec) (stopped : rec.stop = true)
    (ring : Threads.State FdrEntry) : Threads.next layout rec.ring .producer ≠ some ring := by
  have idle := holds.resting stopped
  simp [Threads.next, Threads.producerStep, idle]

/-- Every step of either thread keeps the invariant. -/
theorem Holds.next (rounded : layout.Rounded) (holds : Holds backend layout rec) {action : Action}
    (stepped : Recorder.next backend layout rec action = some target) :
    Holds backend layout target := by
  have file := holds.file
  have fresh : ∀ {stage : Storage E}, rec.storage = stage →
      (∀ result, stage ≠ .finished result) → ∀ result, rec.returned ≠ some result := by
    intro stage here unfinished result given
    exact unfinished result (here ▸ holds.returned result given)
  cases steps_of_next stepped with
  | tooLarge _ => exact holds
  | push running pushed =>
      obtain ⟨popped, consumer⟩ := push_keeps pushed
      refine { holds with
        fifo := holds.fifo.next rounded pushed
        popping := fun outside => consumer.trans (holds.popping outside)
        file := file.ring popped
        resting := fun stopped => ?_ }
      rw [running] at stopped
      cases stopped
  | producer produced =>
      obtain ⟨popped, consumer⟩ := producer_keeps produced
      exact { holds with
        fifo := holds.fifo.next rounded produced
        popping := fun outside => consumer.trans (holds.popping outside)
        file := file.ring popped
        resting := fun stopped => absurd produced (holds.rests stopped _) }
  | startPop stage popped =>
      obtain ⟨_, rfl⟩ := Threads.next_pop popped
      exact { holds with
        fifo := holds.fifo.next rounded popped
        popping := fun outside => absurd stage (outside _)
        file := file.ring rfl }
  | pop stage popped => exact holds.afterPop rounded stage popped
  | write stage wrote =>
      unfold FileHolds at file
      rw [stage] at file
      obtain ⟨written, popped, settled⟩ := file
      have further := settled.write wrote
      refine { holds with
        popping := fun outside => absurd rfl (outside _)
        file := ?_
        running := by simp
        returned := fun result given => absurd given (fresh stage (by simp) result) }
      rw [← frames_concat, ← popped] at further
      exact further
  | check stage =>
      unfold FileHolds at file
      rw [stage] at file
      have idle := holds.popping (by simp [stage])
      refine { holds with
        popping := fun _ => idle
        file := ?_
        running := fun running => ?_
        returned := fun result given => absurd given (fresh stage (by simp) result) }
      · unfold FileHolds
        cases rec.stop with
        | true => exact file
        | false => exact file
      · have unstopped : rec.stop = false := running
        simp [unstopped]
  | close stage closed =>
      unfold FileHolds at file
      rw [stage] at file
      have idle := holds.popping (by simp [stage])
      refine { holds with
        popping := fun _ => idle
        file := FdrWriter.close_settled file closed
        running := fun running => absurd stage (holds.running running).1
        returned := fun result given => absurd given (fresh stage (by simp) result) }
  | fails stage =>
      have outside : (∀ n, rec.storage ≠ .draining n) ∧ ∀ result, rec.storage ≠ .finished result := by
        rcases stage with ⟨n, frame, writing⟩ | closing
        · simp [writing]
        · simp [closing]
      refine { holds with
        popping := fun _ => holds.popping outside.1
        file := trivial
        running := by simp
        returned := fun result given => ?_ }
      exact absurd (holds.returned result given) (outside.2 result)
  | stop running idle =>
      exact { holds with
        resting := fun _ => idle
        running := by simp }
  | join stopped done _ =>
      exact { holds with
        returned := fun result given => (Option.some.inj given) ▸ done }

theorem holds_of_reachable (rounded : layout.Rounded)
    (reached : (threads backend layout memory).Reachable rec) : Holds backend layout rec := by
  apply reached.invariant
  · rintro _ rfl
    exact holds_openRecorder
  · exact fun _ _ _ holds stepped => holds.next rounded stepped

/-- Where a step leads once the recorder is stopped. -/
theorem stop_next (holds : Holds backend layout rec) (stopped : rec.stop = true) {action : Action}
    (stepped : Recorder.next backend layout rec action = some target) :
    target.stop = true ∧ target.ring.accepted = rec.ring.accepted := by
  cases steps_of_next stepped with
  | tooLarge _ => exact ⟨stopped, rfl⟩
  | push running _ => simp [stopped] at running
  | producer produced => exact absurd produced (holds.rests stopped _)
  | startPop _ popped =>
      obtain ⟨_, rfl⟩ := Threads.next_pop popped
      exact ⟨stopped, rfl⟩
  | pop _ popped => exact ⟨stopped, (consumer_keeps popped).1⟩
  | write | check | close | fails | join => exact ⟨stopped, rfl⟩
  | stop running _ => simp [stopped] at running

/-- After the stop a drain that finds nothing has popped everything that was accepted. -/
theorem through_next (rounded : layout.Rounded) (holds : Holds backend layout rec)
    (stopped : rec.stop = true)
    (kept : rec.storage.Through → rec.ring.popped = rec.ring.accepted) {action : Action}
    (stepped : Recorder.next backend layout rec action = some target)
    (through : target.storage.Through) : target.ring.popped = target.ring.accepted := by
  cases steps_of_next stepped with
  | tooLarge _ => exact kept through
  | push running _ => simp [stopped] at running
  | producer produced => exact absurd produced (holds.rests stopped _)
  | startPop _ popped =>
      obtain ⟨_, rfl⟩ := Threads.next_pop popped
      exact kept through
  | pop _ popped =>
      obtain ⟨accepted, -⟩ := consumer_keeps popped
      cases pops_of_consumer rounded holds.fifo popped with
      | inside output _ =>
          rw [output] at through
          exact absurd through id
      | empty _ same _ all => rw [same, accepted, all]
      | taken output _ _ =>
          rw [output] at through
          exact absurd through id
  | write _ _ => exact absurd through id
  | check stage => exact kept (by rw [stage]; trivial)
  | close stage _ => exact kept (by rw [stage]; trivial)
  | fails _ => exact absurd through id
  | stop running _ => simp [stopped] at running
  | join _ _ _ => exact kept through

/-- After the stop a storage thread past its last drain pops nothing more. -/
theorem committed_next (stopped : rec.stop = true) (committed : rec.storage.Committed)
    {action : Action} (stepped : Recorder.next backend layout rec action = some target) :
    target.storage.Committed ∧ target.ring.popped = rec.ring.popped := by
  cases steps_of_next stepped with
  | tooLarge _ => exact ⟨committed, rfl⟩
  | push _ pushed => exact ⟨committed, (push_keeps pushed).1⟩
  | producer produced => exact ⟨committed, (producer_keeps produced).1⟩
  | startPop stage _ | pop stage _ | write stage _ =>
      rw [stage] at committed
      exact absurd committed id
  | check _ =>
      simp [stopped, Storage.Committed]
  | close _ _ => exact ⟨trivial, rfl⟩
  | fails _ => exact ⟨trivial, rfl⟩
  | stop _ _ => exact ⟨committed, rfl⟩
  | join _ _ _ => exact ⟨committed, rfl⟩

/-- The stop comes between a drain that found nothing and the look at the flag, with a frame
in the ring (`!ring.is_empty()`). -/
def AtRisk (rec : Recorder B E) : Prop :=
  rec.storage = .checking ∧ cursor rec.ring.head ≠ cursor rec.ring.tail

/-- A run after the stop keeps the frames that were accepted, and what a drain has proved. -/
theorem kept_execution (rounded : layout.Rounded) (holds : Holds backend layout rec)
    (stopped : rec.stop = true) {actions : List Action}
    (later : (threads backend layout memory).Execution rec actions target) :
    Holds backend layout target ∧ target.ring.accepted = rec.ring.accepted ∧
      ((rec.storage.Through → rec.ring.popped = rec.ring.accepted) →
        target.storage.Through → target.ring.popped = target.ring.accepted) ∧
      (rec.storage.Committed → target.ring.popped = rec.ring.popped) := by
  induction later with
  | nil => exact ⟨holds, rfl, id, fun _ => rfl⟩
  | cons stepped _ inductionHypothesis =>
      obtain ⟨still, accepted⟩ := stop_next holds stopped stepped
      obtain ⟨final, same, through, committed⟩ :=
        inductionHypothesis (holds.next rounded stepped) still
      refine ⟨final, same.trans accepted, ?_, ?_⟩
      · exact fun kept => through (through_next rounded holds stopped kept stepped)
      · intro past
        obtain ⟨further, popped⟩ := committed_next stopped past stepped
        exact (committed further).trans popped

/-- What the stop finds decides which frames the closed file holds. -/
theorem contents_of_stop (rounded : layout.Rounded) {stopped : Recorder B E}
    (reached : (threads backend layout memory).Reachable rec)
    (stop : Recorder.next backend layout rec .stop = some stopped) {actions : List Action}
    (later : (threads backend layout memory).Execution stopped actions target)
    {total : UInt64} (joined : target.returned = some (.ok total)) :
    (¬ rec.AtRisk → backend.contents target.file.backend = FdrWriter.image rec.ring.accepted) ∧
      (rec.AtRisk → ∃ kept, kept <+: rec.ring.accepted ∧ kept.length < rec.ring.accepted.length ∧
        backend.contents target.file.backend = FdrWriter.image kept) := by
  have holds := holds_of_reachable rounded reached
  obtain ⟨running, rfl⟩ : rec.stop = false ∧ { rec with stop := true } = stopped := by
    cases steps_of_next stop with
    | stop running _ => exact ⟨running, rfl⟩
  obtain ⟨final, accepted, through, committed⟩ :=
    kept_execution rounded (holds.next rounded stop) rfl later
  have done := final.returned _ joined
  have contents : backend.contents target.file.backend = FdrWriter.image target.ring.popped := by
    have file := final.file
    unfold FileHolds at file
    rw [done] at file
    exact (file.1.whole file.2).1
  constructor
  · intro safe
    have kept : rec.storage.Through → rec.ring.popped = rec.ring.accepted := by
      intro past
      cases stage : rec.storage with
      | checking =>
          apply popped_eq_of_empty rounded holds.fifo
          exact Decidable.not_not.mp fun waiting => safe ⟨stage, waiting⟩
      | closing => exact absurd stage (holds.running running).1
      | draining n | writing n e =>
          rw [stage] at past
          exact absurd past id
      | finished result =>
          cases result with
          | ok total => exact absurd stage ((holds.running running).2 total)
          | error e =>
              rw [stage] at past
              exact absurd past id
    rw [contents, through kept (by rw [done]; trivial), accepted]
  · rintro ⟨checking, waiting⟩
    have popped := committed (by dsimp only; rw [checking]; trivial)
    have short := (holds.fifo.empty_iff rounded).not.mp waiting
    refine ⟨rec.ring.popped, holds.fifo.inOrder, ?_, by rw [contents, popped]⟩
    exact Nat.lt_of_le_of_ne holds.fifo.le (Ne.symm short)

/-- The closed file holds every frame accepted before the stop, in order, the end marker and
zeros, exactly if no frame was at risk at the stop; else it ends before one that was accepted. -/
theorem stopAndJoin_keeps_iff (capacity : Nat) {stopped : Recorder B E}
    (reached : (threads backend (Threads.withCapacity capacity) memory).Reachable rec)
    (stop : Recorder.next backend (Threads.withCapacity capacity) rec .stop = some stopped)
    {actions : List Action}
    (later : (threads backend (Threads.withCapacity capacity) memory).Execution stopped actions
      target)
    {total : UInt64} (joined : target.returned = some (.ok total)) :
    (backend.contents target.file.backend = FdrWriter.image rec.ring.accepted ↔ ¬ rec.AtRisk) ∧
      (rec.AtRisk → ∃ kept, kept <+: rec.ring.accepted ∧ kept.length < rec.ring.accepted.length ∧
        backend.contents target.file.backend = FdrWriter.image kept) := by
  have rounded := Threads.rounded_withCapacity capacity
  obtain ⟨safe, lossy⟩ := contents_of_stop rounded reached stop later joined
  refine ⟨⟨?_, safe⟩, lossy⟩
  intro whole risk
  obtain ⟨kept, -, short, contents⟩ := lossy risk
  exact FdrWriter.image_ne short (whole.symm.trans contents)

section Instance

/-- A stopped storage thread that found nothing closes the file, if the backend takes it. -/
theorem exists_joined {limit : Nat} (accepts : backend.Accepts limit) (rec : Recorder B E)
    {drained : List FdrEntry} (settled : rec.file.Settled backend (frames drained))
    (room : (FdrWriter.image drained).length ≤ limit) (checking : rec.storage = .checking)
    (stopped : rec.stop = true) (fresh : rec.returned = none) :
    ∃ target total, (threads backend layout memory).Execution rec [.storage, .storage, .join]
      target ∧ target.returned = some (.ok total) := by
  obtain ⟨file, closed⟩ := FdrWriter.close_accepted accepts settled room
  have check : Recorder.next backend layout rec .storage = some { rec with storage := .closing } := by
    simp [Recorder.next, storageStep, checking, stopped]
  have close : Recorder.next backend layout { rec with storage := .closing } .storage =
      some { rec with file := file, storage := .finished (.ok file.written) } := by
    simp [Recorder.next, storageStep, closed]
  have join : Recorder.next backend layout
      { rec with file := file, storage := .finished (.ok file.written) } .join =
        some { rec with file := file, storage := .finished (.ok file.written),
                        returned := some (.ok file.written) } := by
    simp [Recorder.next, stopped, fresh]
  exact ⟨_, file.written, .cons check (.cons close (.cons join (.nil _))), rfl⟩

/-- One frame is pushed after a drain that found nothing. -/
def lateRecord : List Action :=
  [.storage, .storage, .storage, .tryRecord .gps [7] 1, .producer, .producer, .producer, .producer]

/-- A frame that was accepted before the stop is not in the closed file. -/
theorem lost_at_shutdown :
    ¬ ∀ (rec stopped target : Recorder FileBytes Unit) (actions : List Action) (total : UInt64),
      (threads memoryFile (Threads.withCapacity 4) staleMemory).Reachable rec →
      Recorder.next memoryFile (Threads.withCapacity 4) rec .stop = some stopped →
      (threads memoryFile (Threads.withCapacity 4) staleMemory).Execution stopped actions target →
      target.returned = some (.ok total) →
      ∀ e ∈ rec.ring.accepted, e.bytesOf <:+: memoryFile.contents target.file.backend := by
  intro kept
  obtain ⟨rec, performed, checking, running, idle, fresh, file, e, accepted, marked, risk⟩ :
      ∃ rec, TransitionSystem.perform (Recorder.next memoryFile (Threads.withCapacity 4))
          (openRecorder memoryFile staleMemory) lateRecord = some rec ∧
        rec.storage = .checking ∧ rec.stop = false ∧ rec.ring.producer = .idle ∧
        rec.returned = none ∧ rec.file = .openFile memoryFile staleMemory ∧
        ∃ e, rec.ring.accepted = [e] ∧ e.bytesOf[16]? = some 7 ∧ rec.AtRisk :=
    ⟨_, rfl, rfl, rfl, rfl, rfl, rfl, _, rfl, by decide, rfl, by decide⟩
  have reached : (threads memoryFile (Threads.withCapacity 4) staleMemory).Reachable rec :=
    TransitionSystem.reachable_of_perform rfl performed
  have stop : Recorder.next memoryFile (Threads.withCapacity 4) rec .stop =
      some { rec with stop := true } := by
    simp [Recorder.next, running, idle]
  have settled : rec.file.Settled memoryFile (frames []) := by
    rw [file]
    exact DirectFile.settled_openFile staleMemory
  obtain ⟨target, total, later, joined⟩ := exists_joined accepts_memoryFile
    { rec with stop := true } settled ((FdrWriter.length_image_le []).trans (by decide)) checking
    rfl fresh
  have lost := (contents_of_stop (Threads.rounded_withCapacity 4) reached stop later joined).2 risk
  obtain ⟨front, -, short, contents⟩ := lost
  rw [accepted, List.length_singleton, Nat.lt_one_iff, List.length_eq_zero_iff] at short
  have inside := kept rec _ target _ total reached stop later joined e (by simp [accepted])
  have marker : (7 : UInt8) ∈ FdrWriter.image front := by
    rw [← contents]
    exact inside.subset (List.mem_of_getElem? marked)
  rw [short, FdrWriter.image, padded] at marker
  rcases List.mem_append.mp marker with frame | zeros
  · have absent : (7 : UInt8) ∉ frames [] ++ endOfStream.bytesOf := by decide +kernel
    exact absent frame
  · exact absurd (List.eq_of_mem_replicate zeros) (by decide)

/-- A frame that is written after the stop; the two drains after it find nothing. -/
def keptRecord : List Action :=
  [.tryRecord .gps [7] 1, .producer, .producer, .producer, .producer,
    .storage, .storage, .storage, .storage, .storage]

/-- The storage thread has popped its first frame. -/
def firstFrame (ring : Threads.State FdrEntry) (e : FdrEntry) (stop : Bool) :
    Recorder FileBytes Unit where
  ring := ring
  stop := stop
  storage := .writing 0 e
  file := .openFile memoryFile staleMemory
  returned := none

theorem stopAndJoin_keeps_one :
    ∃ (rec target : Recorder FileBytes Unit) (e : FdrEntry) (total : UInt64),
      target.returned = some (.ok total) ∧ rec.ring.accepted = [e] ∧
      memoryFile.contents target.file.backend = FdrWriter.image [e] := by
  obtain ⟨ring, e, performed, accepted, idle, drains⟩ :
      ∃ ring e, TransitionSystem.perform (Recorder.next memoryFile (Threads.withCapacity 4))
          (openRecorder memoryFile staleMemory) keptRecord = some (firstFrame ring e false) ∧
        ring.accepted = [e] ∧ ring.producer = .idle ∧
        ∀ file, ∃ found : Recorder _ _,
          TransitionSystem.perform (Recorder.next memoryFile (Threads.withCapacity 4))
            { firstFrame ring e true with storage := .draining 1, file := file }
            [.storage, .storage, .storage, .storage, .storage, .storage] = some found ∧
          found.storage = .checking ∧ found.stop = true ∧ found.returned = none ∧
          found.file = file :=
    ⟨_, _, rfl, rfl, rfl, fun _ => ⟨_, rfl, rfl, rfl, rfl, rfl⟩⟩
  have reached : (threads memoryFile (Threads.withCapacity 4) staleMemory).Reachable
      (firstFrame ring e false) := TransitionSystem.reachable_of_perform rfl performed
  have stop : Recorder.next memoryFile (Threads.withCapacity 4) (firstFrame ring e false) .stop =
      some (firstFrame ring e true) := by
    simp [Recorder.next, firstFrame, idle]
  have empty : (firstFrame ring e true).file.Settled memoryFile [] :=
    DirectFile.settled_openFile staleMemory
  obtain ⟨file, wrote⟩ := empty.write_accepted accepts_memoryFile e.bytesOf
    (by rw [length_bytesOf]; decide)
  have settled : file.Settled memoryFile (frames [e]) := by
    simpa [frames] using empty.write wrote
  have write : Recorder.next memoryFile (Threads.withCapacity 4) (firstFrame ring e true)
      .storage = some { firstFrame ring e true with storage := .draining 1, file := file } := by
    have stage : (firstFrame ring e true).storage = .writing 0 e := rfl
    simp [Recorder.next, storageStep, stage, wrote]
  have room : (FdrWriter.image [e]).length ≤ 2 ^ 63 - 1 := by
    refine (FdrWriter.length_image_le [e]).trans ?_
    rw [List.length_singleton]
    decide
  obtain ⟨found, drained, checking, stopped, fresh, same⟩ := drains file
  obtain ⟨target, total, closing, joined⟩ := exists_joined accepts_memoryFile found
    (by rw [same]; exact settled) room checking stopped fresh
  have later := TransitionSystem.Execution.append
    (.cons write (TransitionSystem.execution_of_perform drained)) closing
  obtain ⟨kept, -⟩ := stopAndJoin_keeps_iff 4 reached stop later joined
  have safe : ¬ (firstFrame ring e false).AtRisk := by simp [AtRisk, firstFrame]
  have contents := kept.mpr safe
  exact ⟨firstFrame ring e false, target, e, total, joined, accepted,
    contents.trans (congrArg FdrWriter.image accepted)⟩

end Instance

end Teleop.Analytics.Recorder
