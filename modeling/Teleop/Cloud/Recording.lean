import Mathlib.Data.UInt
import Mathlib.Data.List.Infix
import Teleop.Lib.Bytes
import Teleop.Lib.Slices
import Teleop.Lib.TransitionSystem
import Teleop.Link.Mux

/-!
# Session recordings on disk

A recording is a header of 18 bytes, written when the file is empty, and frames of a head of
13 bytes and a payload, appended by any number of sessions.  The reader has no delimiter to
go by but the lengths.
-/

namespace Teleop.Cloud.Recording

open Teleop.Lib Teleop.Link

/-- Magic of a recording file. -/
def recMagic : UInt64 := 0x5450545245430000

/-- Revision of the container format. -/
def recVersion : UInt16 := 1

def headerLen : Nat := 18

/-- Bytes before the payload of a frame: channel, sequence number and length. -/
def frameHeadLen : Nat := 13

/-- Errors of the file system and of the container. -/
inductive IoError where
  | notFound
  | invalidData (message : String)
  deriving DecidableEq, Repr

/-- One decoded frame. -/
structure RecordedFrame where
  channel : UInt8
  seq : UInt64
  payload : List UInt8
  deriving DecidableEq, Repr

/-- A recorder appending to an open file. -/
structure FileRecorder where
  count : UInt64
  deriving DecidableEq, Repr

/-- The one-time header. -/
def header (unitId : UInt64) : List UInt8 :=
  leBytes 8 recMagic.toNat ++ (leBytes 2 recVersion.toNat ++ leBytes 8 unitId.toNat)

/-- What precedes the payload of a frame. -/
def frameHead (channel : UInt8) (seq : UInt64) (payload : List UInt8) : List UInt8 :=
  channel :: (leBytes 8 seq.toNat ++ leBytes 4 (UInt32.ofNat payload.length).toNat)

namespace FileRecorder

/-- Opens a file for appending and writes the header when it is new or empty. -/
def create (file : Option (List UInt8)) (unitId : UInt64) : List UInt8 × FileRecorder :=
  let content := file.getD []
  (if content.length = 0 then content ++ header unitId else content, ⟨0⟩)

/-- Appends one frame, unless the payload is too long. -/
def record (recorder : FileRecorder) (file : List UInt8) (channel : UInt8) (seq : UInt64)
    (payload : List UInt8) : List UInt8 × FileRecorder × Except IoError Unit :=
  if payload.length > maxPayload then
    (file, recorder, .error (.invalidData "payload exceeds recording MTU"))
  else
    (file ++ frameHead channel seq payload ++ payload, ⟨recorder.count + 1⟩, .ok ())

end FileRecorder

/-- The loop of `read_frames` at offset `i`.  Every pass moves on by a frame head at least. -/
def readLoop (data : List UInt8) :
    (fuel : Nat) → (i : Nat) → List RecordedFrame → Option (Except IoError (List RecordedFrame))
  | 0, _, out => some (.ok out)
  | fuel + 1, i, out =>
      if i + frameHeadLen ≤ data.length then do
        let channel ← data[i]?
        let seq ← slice data (i + 1) (i + 9)
        let len ← slice data (i + 9) (i + 13)
        let start := i + frameHeadLen
        let stop := start + ofLe len
        if stop > data.length then some (.error (.invalidData "truncated frame"))
        else do
          let payload ← slice data start stop
          readLoop data fuel stop (out ++ [⟨channel, .ofNat (ofLe seq), payload⟩])
      else some (.ok out)

/-- Reads every frame back; `none` where the code panics. -/
def readFrames : Option (List UInt8) → Option (Except IoError (List RecordedFrame))
  | none => some (.error .notFound)
  | some data =>
      if data.length < headerLen then some (.error (.invalidData "file too short"))
      else do
        let magic ← slice data 0 8
        if UInt64.ofNat (ofLe magic) ≠ recMagic then
          some (.error (.invalidData "bad recording magic"))
        else readLoop data (data.length + 1) headerLen []

/-- The bytes of one frame on disk. -/
def RecordedFrame.bytes (frame : RecordedFrame) : List UInt8 :=
  frameHead frame.channel frame.seq frame.payload ++ frame.payload

/-- The bytes of some frames one after the other. -/
def framesBytes (frames : List RecordedFrame) : List UInt8 := frames.flatMap RecordedFrame.bytes

@[simp] theorem framesBytes_cons (frame : RecordedFrame) (rest : List RecordedFrame) :
    framesBytes (frame :: rest) =
      frameHead frame.channel frame.seq frame.payload ++ (frame.payload ++ framesBytes rest) := by
  simp [framesBytes, RecordedFrame.bytes]

theorem framesBytes_concat (frames : List RecordedFrame) (frame : RecordedFrame) :
    framesBytes (frames ++ [frame]) = framesBytes frames ++ frame.bytes := by
  simp [framesBytes]

@[simp] theorem length_header (unitId : UInt64) : (header unitId).length = headerLen := by
  simp [header, headerLen]

@[simp] theorem length_frameHead (channel : UInt8) (seq : UInt64) (payload : List UInt8) :
    (frameHead channel seq payload).length = frameHeadLen := by
  simp [frameHead, frameHeadLen]

/-- A part of two pieces that covers the first one. -/
theorem exists_of_prefix_append {part first second : List UInt8} (cut : part <+: first ++ second)
    (covers : first.length ≤ part.length) : ∃ rest, part = first ++ rest ∧ rest <+: second := by
  obtain ⟨rest, rfl⟩ :=
    List.prefix_of_prefix_length_le (List.prefix_append first second) cut covers
  exact ⟨rest, rfl, (List.prefix_append_right_inj first).mp cut⟩

section Reading

variable {data : List UInt8} {i : Nat} {frame : RecordedFrame}

/-- The head of a frame is read back. -/
theorem read_frameHead {rest : List UInt8} (inside : i ≤ data.length)
    (here : data.drop i = frameHead frame.channel frame.seq frame.payload ++ rest) :
    data[i]? = some frame.channel ∧
      slice data (i + 1) (i + 9) = some (leBytes 8 frame.seq.toNat) ∧
      slice data (i + 9) (i + 13) =
        some (leBytes 4 (UInt32.ofNat frame.payload.length).toNat) := by
  have remaining : data.length = i + (frameHeadLen + rest.length) := by
    have lengths := congrArg List.length here
    rw [List.length_drop, List.length_append, length_frameHead] at lengths
    omega
  have room : i + 13 ≤ data.length := by
    rw [remaining, frameHeadLen]
    omega
  refine ⟨?_, ?_, ?_⟩
  · rw [← List.head?_drop, here]
    rfl
  · rw [slice_eq_take_of_le (by omega) (by omega), ← List.drop_drop, here]
    simp [frameHead]
  · rw [slice_eq_take_of_le (by omega) room, ← List.drop_drop, here]
    simp [frameHead]

theorem readLoop_stops {fuel : Nat} {out : List RecordedFrame}
    (short : data.length < i + frameHeadLen) : readLoop data fuel i out = some (.ok out) := by
  cases fuel with
  | zero => rfl
  | succ fuel => exact if_neg (Nat.not_le.mpr short)

/-- The length that a head announces is the one of the payload. -/
theorem announced_length (fits : frame.payload.length ≤ maxPayload) :
    ofLe (leBytes 4 (UInt32.ofNat frame.payload.length).toNat) = frame.payload.length := by
  have small : frame.payload.length < 2 ^ 32 := Nat.lt_of_le_of_lt fits (by decide)
  rw [ofLe_leBytes, UInt32.toNat_ofNat_of_lt' small]
  exact Nat.mod_eq_of_lt small

/-- A pass over a frame whose payload was cut off, and over one that is whole. -/
theorem readLoop_frame {fuel : Nat} {out : List RecordedFrame} {rest : List UInt8}
    (fits : frame.payload.length ≤ maxPayload) (inside : i ≤ data.length)
    (here : data.drop i = frameHead frame.channel frame.seq frame.payload ++ rest) :
    readLoop data (fuel + 1) i out =
      if rest.length < frame.payload.length then some (.error (.invalidData "truncated frame"))
      else readLoop data fuel (i + frameHeadLen + frame.payload.length)
        (out ++ [⟨frame.channel, frame.seq, rest.take frame.payload.length⟩]) := by
  obtain ⟨channel, seq, len⟩ := read_frameHead inside here
  have lengths := congrArg List.length here
  rw [List.length_drop, List.length_append, length_frameHead] at lengths
  have number : UInt64.ofNat (ofLe (leBytes 8 frame.seq.toNat)) = frame.seq := by
    rw [ofLe_leBytes, ofNat_toNat_mod_eight]
  rw [readLoop, if_pos (by omega), channel, seq, len]
  simp only [Option.bind_eq_bind, Option.bind_some, announced_length fits, number]
  by_cases cut : rest.length < frame.payload.length
  · rw [if_pos (by omega), if_pos cut]
  · have payload : slice data (i + frameHeadLen) (i + frameHeadLen + frame.payload.length) =
        some (rest.take frame.payload.length) := by
      rw [slice_eq_take_of_le (by omega) (by omega), ← List.drop_drop, here,
        List.drop_left' (length_frameHead _ _ _), Nat.add_sub_cancel_left]
    rw [if_neg (by omega), if_neg cut, payload]
    rfl

/-- From an offset at which a part of some frames begins, the loop reads some of the frames in
order or finds one truncated; of all the frames it reads all. -/
theorem readLoop_part (frames : List RecordedFrame)
    (fit : ∀ frame ∈ frames, frame.payload.length ≤ maxPayload) (fuel : Nat)
    (out : List RecordedFrame) (enough : data.length < i + fuel) (inside : i ≤ data.length)
    (part : data.drop i <+: framesBytes frames) :
    ∃ result, readLoop data fuel i out = some result ∧
      (∀ read, result = .ok read → read <+: out ++ frames) ∧
      (data.drop i = framesBytes frames → result = .ok (out ++ frames)) := by
  induction frames generalizing i fuel out with
  | nil =>
      have ends : data.drop i = [] := List.prefix_nil.mp part
      have short : data.length < i + frameHeadLen := by
        have lengths := congrArg List.length ends
        rw [List.length_drop, List.length_nil] at lengths
        unfold frameHeadLen
        omega
      refine ⟨_, readLoop_stops short, ?_, fun _ => by rw [List.append_nil]⟩
      rintro _ ⟨⟩
      rw [List.append_nil]
  | cons frame others inductionHypothesis =>
      rw [framesBytes_cons] at part ⊢
      by_cases headed : frameHeadLen ≤ (data.drop i).length
      · have fueled : fuel ≠ 0 := by
          rw [List.length_drop] at headed
          unfold frameHeadLen at headed
          omega
        obtain ⟨fuel, rfl⟩ := Nat.exists_eq_succ_of_ne_zero fueled
        obtain ⟨rest, here, follows⟩ :=
          exists_of_prefix_append part (by rw [length_frameHead]; exact headed)
        rw [readLoop_frame (fit frame List.mem_cons_self) inside here, here,
          List.append_cancel_left_eq]
        by_cases cut : rest.length < frame.payload.length
        · rw [if_pos cut]
          refine ⟨.error (.invalidData "truncated frame"), rfl, ?_, ?_⟩
          · intro read impossible
            cases impossible
          · rintro rfl
            rw [List.length_append] at cut
            omega
        · obtain ⟨later, rfl, laterPart⟩ :=
            exists_of_prefix_append follows (Nat.le_of_not_lt cut)
          have beyond : data.drop (i + frameHeadLen + frame.payload.length) = later := by
            rw [← List.drop_drop, ← List.drop_drop, here,
              List.drop_left' (length_frameHead _ _ _), List.drop_left' rfl]
          have within : i + frameHeadLen + frame.payload.length ≤ data.length := by
            have lengths := congrArg List.length here
            rw [List.length_drop, List.length_append, List.length_append,
              length_frameHead] at lengths
            unfold frameHeadLen at lengths ⊢
            omega
          rw [if_neg cut, List.take_left' rfl, List.append_cancel_left_eq, ← beyond]
          have remaining := inductionHypothesis
            (fun other among => fit other (List.mem_cons_of_mem _ among))
            fuel (out ++ [frame]) (by unfold frameHeadLen; omega) within
            (by rw [beyond]; exact laterPart)
          rw [← List.append_cons] at remaining
          exact remaining
      · have short : data.length < i + frameHeadLen := by
          rw [List.length_drop] at headed
          omega
        refine ⟨_, readLoop_stops short, ?_, ?_⟩
        · rintro _ ⟨⟩
          exact List.prefix_append _ _
        · intro whole
          rw [whole, List.length_append, length_frameHead] at headed
          omega

end Reading

/-- The magic of a recording is found in its header, whatever follows. -/
theorem magic_of_header (unitId : UInt64) (rest : List UInt8) :
    slice (header unitId ++ rest) 0 8 = some (leBytes 8 recMagic.toNat) := by
  rw [slice_eq_take_of_le (Nat.zero_le _) (by simp [headerLen]; omega)]
  simp [header]

/-- A part of a recording reads as some of its frames in order, or as an error; the whole of
it reads as all of them. -/
theorem readFrames_part {unitId : UInt64} {frames : List RecordedFrame}
    (fit : ∀ frame ∈ frames, frame.payload.length ≤ maxPayload) {part : List UInt8}
    (cut : part <+: header unitId ++ framesBytes frames) :
    ∃ result, readFrames (some part) = some result ∧
      (∀ read, result = .ok read → read <+: frames) ∧
      (part = header unitId ++ framesBytes frames → result = .ok frames) := by
  unfold readFrames
  by_cases short : part.length < headerLen
  · refine ⟨.error (.invalidData "file too short"), if_pos short, ?_, ?_⟩
    · intro read impossible
      cases impossible
    · rintro rfl
      rw [List.length_append, length_header] at short
      omega
  · obtain ⟨rest, rfl, follows⟩ :=
      exists_of_prefix_append cut (by rw [length_header]; exact Nat.le_of_not_lt short)
    have magic : UInt64.ofNat (ofLe (leBytes 8 recMagic.toNat)) = recMagic := by decide
    have beyond : (header unitId ++ rest).drop headerLen = rest :=
      List.drop_left' (length_header unitId)
    have framed : (header unitId ++ rest).drop headerLen <+: framesBytes frames := by
      rw [beyond]
      exact follows
    have read := readLoop_part frames fit _ [] (Nat.lt_add_left _ (Nat.lt_succ_self _))
      (Nat.le_of_not_lt short) framed
    obtain ⟨result, looped, sound, complete⟩ := read
    refine ⟨result, ?_, sound, ?_⟩
    · dsimp only
      rw [if_neg short, magic_of_header]
      simp only [Option.bind_eq_bind, Option.bind_some, magic, ne_eq, not_true_eq_false, if_false]
      exact looped
    · intro whole
      rw [List.append_cancel_left_eq] at whole
      apply complete
      rw [beyond, whole]

/-- The file of one unit, the recorders opened on it, and the frames that `record` accepted. -/
structure Sessions where
  file : Option (List UInt8)
  recorders : List FileRecorder
  recorded : List RecordedFrame

inductive Call where
  | create
  | record (session : Nat) (channel : UInt8) (seq : UInt64) (payload : List UInt8)

/-- What a call leaves and answers.  Sessions may overlap: every recorder appends. -/
def call (unitId : UInt64) (state : Sessions) : Call → Option (Sessions × Except IoError Unit)
  | .create =>
      let (file, recorder) := FileRecorder.create state.file unitId
      some ({ state with file := some file, recorders := state.recorders ++ [recorder] }, .ok ())
  | .record session channel seq payload => do
      let file ← state.file
      let recorder ← state.recorders[session]?
      let (file, recorder, answer) := recorder.record file channel seq payload
      return ({
        file := some file
        recorders := state.recorders.set session recorder
        recorded := match answer with
          | .ok _ => state.recorded ++ [⟨channel, seq, payload⟩]
          | .error _ => state.recorded }, answer)

/-- All sequences of sessions on a file that is missing or empty at first. -/
def system (unitId : UInt64) : TransitionSystem Sessions Call :=
  .ofNext (fun state => (state.file = none ∨ state.file = some []) ∧ state.recorders = [] ∧
    state.recorded = []) fun state made => (call unitId state made).map (·.1)

/-- A file that some session opened is the header and the recorded frames. -/
structure Recorded (unitId : UInt64) (state : Sessions) : Prop where
  content : state.file.getD [] =
    if state.recorders = [] then [] else header unitId ++ framesBytes state.recorded
  present : state.recorders ≠ [] → state.file.isSome
  unopened : state.recorders = [] → state.recorded = []
  fit : ∀ frame ∈ state.recorded, frame.payload.length ≤ maxPayload

variable {unitId : UInt64} {state target : Sessions}

theorem Recorded.create (recorded : Recorded unitId state) :
    Recorded unitId {
      state with
      file := some (FileRecorder.create state.file unitId).1
      recorders := state.recorders ++ [(FileRecorder.create state.file unitId).2] } := by
  have content := recorded.content
  refine ⟨?_, fun _ => rfl, fun impossible => absurd impossible (by simp), recorded.fit⟩
  have opened : state.recorders ++ [(FileRecorder.create state.file unitId).2] ≠ [] := by simp
  rw [Option.getD_some, if_neg opened, FileRecorder.create, content]
  by_cases first : state.recorders = []
  · rw [if_pos first, recorded.unopened first]
    simp [framesBytes]
  · rw [if_neg first]
    simp [headerLen]

/-- `record` refuses a payload that is too long, leaving everything as it is, and otherwise
appends the bytes of the frame. -/
theorem record_cases (recorder : FileRecorder) (file : List UInt8) (channel : UInt8)
    (seq : UInt64) (payload : List UInt8) :
    (maxPayload < payload.length ∧ recorder.record file channel seq payload =
        (file, recorder, .error (.invalidData "payload exceeds recording MTU"))) ∨
      (payload.length ≤ maxPayload ∧ recorder.record file channel seq payload =
        (file ++ RecordedFrame.bytes ⟨channel, seq, payload⟩, ⟨recorder.count + 1⟩, .ok ())) := by
  unfold FileRecorder.record
  split
  · rename_i long
    exact .inl ⟨long, rfl⟩
  · rename_i fits
    exact .inr ⟨Nat.le_of_not_lt fits, by simp [RecordedFrame.bytes]⟩

theorem Recorded.record (recorded : Recorded unitId state) {session : Nat} {channel : UInt8}
    {seq : UInt64} {payload : List UInt8} {answer : Except IoError Unit}
    (made : call unitId state (.record session channel seq payload) = some (target, answer)) :
    Recorded unitId target := by
  obtain ⟨file, present, made⟩ := Option.bind_eq_some_iff.mp made
  obtain ⟨recorder, opened, made⟩ := Option.bind_eq_some_iff.mp made
  have nonempty : state.recorders ≠ [] := by
    rintro empty
    rw [empty] at opened
    cases opened
  have kept (changed : FileRecorder) : state.recorders.set session changed ≠ [] := by
    rw [ne_eq, List.set_eq_nil_iff]
    exact nonempty
  have content := recorded.content
  rw [present, if_neg nonempty, Option.getD_some] at content
  rcases record_cases recorder file channel seq payload with ⟨_, refused⟩ | ⟨fits, appended⟩
  · rw [refused] at made
    cases made
    refine ⟨?_, fun _ => rfl, fun impossible => absurd impossible (kept _), recorded.fit⟩
    rw [if_neg (kept _), Option.getD_some, content]
  · rw [appended] at made
    cases made
    refine ⟨?_, fun _ => rfl, fun impossible => absurd impossible (kept _), ?_⟩
    · rw [if_neg (kept _), Option.getD_some, content, framesBytes_concat, List.append_assoc]
    · intro frame among
      rcases List.mem_append.mp among with earlier | new
      · exact recorded.fit frame earlier
      · rw [List.mem_singleton.mp new]
        exact fits

theorem recorded_of_reachable (reached : (system unitId).Reachable state) :
    Recorded unitId state := by
  apply reached.invariant
  · rintro state ⟨empty, noneOpen, noneRecorded⟩
    refine ⟨?_, fun opened => absurd noneOpen opened, fun _ => noneRecorded, ?_⟩
    · rw [if_pos noneOpen]
      rcases empty with missing | empty
      · rw [missing]
        rfl
      · rw [empty]
        rfl
    · simp [noneRecorded]
  · intro state action target recorded stepped
    obtain ⟨⟨_, answer⟩, made, rfl⟩ := Option.map_eq_some_iff.mp stepped
    cases action with
    | create =>
        cases made
        exact recorded.create
    | record session channel seq payload => exact recorded.record made

/-- After any sessions on the file of a unit, it reads as the frames that were recorded, in
order; a payload that is too long is refused and leaves the file as it was; and every shorter
part of the file reads, without a panic, as an error or as some of those frames in order. -/
theorem recording_roundTrip (unitId : UInt64) (state : Sessions)
    (reached : (system unitId).Reachable state) :
    (state.recorders ≠ [] → readFrames state.file = some (.ok state.recorded)) ∧
      (∀ session channel seq payload target answer,
        call unitId state (.record session channel seq payload) = some (target, answer) →
        maxPayload < payload.length →
        answer = .error (.invalidData "payload exceeds recording MTU") ∧
          target.file = state.file ∧ target.recorded = state.recorded) ∧
      ∀ file part, state.file = some file → part <+: file → part ≠ file →
        ∃ result, readFrames (some part) = some result ∧
          ∀ read, result = .ok read → read <+: state.recorded := by
  have recorded := recorded_of_reachable reached
  have content := recorded.content
  refine ⟨?_, ?_, ?_⟩
  · intro opened
    obtain ⟨file, present⟩ := Option.isSome_iff_exists.mp (recorded.present opened)
    rw [present, if_neg opened, Option.getD_some] at content
    obtain ⟨result, read, _, whole⟩ :=
      readFrames_part recorded.fit (List.prefix_refl (header unitId ++ framesBytes state.recorded))
    rw [present, content, read, whole rfl]
  · intro session channel seq payload target answer made long
    obtain ⟨file, present, made⟩ := Option.bind_eq_some_iff.mp made
    obtain ⟨recorder, opened, made⟩ := Option.bind_eq_some_iff.mp made
    rcases record_cases recorder file channel seq payload with ⟨_, refused⟩ | ⟨fits, _⟩
    · rw [refused] at made
      cases made
      exact ⟨rfl, present.symm, rfl⟩
    · exact absurd fits (Nat.not_le.mpr long)
  · intro file part present cut _
    rw [present, Option.getD_some] at content
    rw [content] at cut
    by_cases opened : state.recorders = []
    · rw [if_pos opened] at cut
      rw [List.prefix_nil.mp cut]
      exact ⟨.error (.invalidData "file too short"), rfl, fun _ impossible => by cases impossible⟩
    · rw [if_neg opened] at cut
      obtain ⟨result, read, sound, _⟩ := readFrames_part recorded.fit cut
      exact ⟨result, read, sound⟩

/-- Two sessions of unit 99, with a frame each and an empty one between. -/
def twoSessions : List Call :=
  [.create, .record 0 1 1 [7, 8], .record 0 2 42 [], .create, .record 1 3 43 [9]]

theorem twoSessions_roundTrip :
    ∃ state, TransitionSystem.perform (fun state made => (call 99 state made).map (·.1))
        ⟨none, [], []⟩ twoSessions = some state ∧
      state.recorded = [⟨1, 1, [7, 8]⟩, ⟨2, 42, []⟩, ⟨3, 43, [9]⟩] ∧
      readFrames state.file = some (.ok state.recorded) := by
  have result : ∃ file recorders,
      TransitionSystem.perform (fun state made => (call 99 state made).map (·.1))
        ⟨none, [], []⟩ twoSessions =
          some ⟨file, recorders, [⟨1, 1, [7, 8]⟩, ⟨2, 42, []⟩, ⟨3, 43, [9]⟩]⟩ ∧
        recorders.length = 2 := ⟨_, _, rfl, rfl⟩
  obtain ⟨file, recorders, performed, two⟩ := result
  have reached : (system 99).Reachable ⟨file, recorders, _⟩ :=
    TransitionSystem.reachable_of_perform ⟨.inl rfl, rfl, rfl⟩ performed
  refine ⟨_, performed, rfl, (recording_roundTrip 99 _ reached).1 ?_⟩
  rintro rfl
  cases two

end Teleop.Cloud.Recording
