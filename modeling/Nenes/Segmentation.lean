import Nenes.ChannelManager

set_option autoImplicit false

namespace Nenes

open ByteBuf OperationServerHandler Server Runs
open Unicode (encodeUtf8 encodeUtf16 asciiBytes)

def opJoinBytes : Bytes := asciiBytes "OP_JOIN".toList

structure JoinFrame where
  header : Bytes
  short : header.length < 100
  join : opJoinBytes <+: header
  data : List Char
  fits : (frameHeader header (encodeUtf8 data).length ++ encodeUtf8 data).length < 2 ^ 31

def JoinFrame.bytes (frame : JoinFrame) : Bytes :=
  frameHeader frame.header (encodeUtf8 frame.data).length ++ encodeUtf8 frame.data

def JoinFrame.chunk (frame : JoinFrame) : Chunk := ⟨frame.bytes, frame.fits⟩

def stream (frames : List JoinFrame) : Bytes := (frames.map JoinFrame.bytes).flatten

-- A header length below 100 is three zero bytes and one more.
def JoinsAtStart (bytes : Bytes) : Prop := bytes.take 3 = [0, 0, 0] ∧ opJoinBytes <+: bytes.drop 4

def NoSecondJoin (frame : JoinFrame) : Prop := ∀ skipped, 1 ≤ skipped → ¬ JoinsAtStart (frame.bytes.drop skipped)

theorem starts_with_join (header : Bytes) :
    startsWith (toStringUtf8 header) opCodeJoin = true ↔ opJoinBytes <+: header := by
  have ascii : "OP_JOIN".toList.all (fun c => c.toNat < 0x80) = true := by decide +kernel
  rw [startsWith, List.isPrefixOf_iff_prefix]
  exact starts_with_ascii "OP_JOIN".toList header (by simpa only [List.all_eq_true, decide_eq_true_eq] using ascii)

theorem write_int_byte (n : Nat) (small : n < 256) : writeInt n = [0, 0, 0, UInt8.ofNat n] := by
  have unsigned : BigEndian.unsigned 32 n = n := by
    rw [BigEndian.unsigned]
    omega
  rw [writeInt, unsigned]
  simp only [BigEndian.encode, Nat.div_one, Nat.pow_zero]
  rw [Nat.div_eq_of_lt (by omega), Nat.div_eq_of_lt (by omega), Nat.div_eq_of_lt (by omega)]
  rfl

theorem frame_header_bytes (header : Bytes) (dataSize : Int) (short : header.length < 100) :
    frameHeader header dataSize = 0 :: 0 :: 0 :: UInt8.ofNat header.length :: (header ++ writeLong dataSize) := by
  rw [frameHeader, write_int_byte _ (by omega)]
  rfl

theorem header_joins_at_start (header rest : Bytes) (dataSize : Int) (short : header.length < 100)
    (join : startsWith (toStringUtf8 header) opCodeJoin = true) : JoinsAtStart (frameHeader header dataSize ++ rest) := by
  rw [frame_header_bytes header dataSize short]
  refine ⟨rfl, ?_⟩
  simp only [List.cons_append, List.drop_succ_cons, List.drop_zero, List.append_assoc]
  exact ((starts_with_join header).mp join).trans (List.prefix_append _ _)

theorem joins_at_start_append (bytes rest : Bytes) (joins : JoinsAtStart bytes) : JoinsAtStart (bytes ++ rest) := by
  obtain ⟨zeros, join⟩ := joins
  constructor
  · have length := congrArg List.length zeros
    rw [List.length_take] at length
    rw [List.take_append_of_le_length (by simp at length; omega), zeros]
  · rw [List.drop_append]
    exact join.trans (List.prefix_append _ _)

theorem stream_starts (frame : JoinFrame) (rest : List JoinFrame) :
    ∃ length tail, stream (frame :: rest) = 0 :: 0 :: 0 :: length :: (opJoinBytes ++ tail) := by
  obtain ⟨tail, header⟩ := frame.join
  refine ⟨UInt8.ofNat frame.header.length,
    tail ++ writeLong (encodeUtf8 frame.data).length ++ encodeUtf8 frame.data ++ stream rest, ?_⟩
  rw [stream, List.map_cons, List.flatten_cons, JoinFrame.bytes, frame_header_bytes _ _ frame.short]
  nth_rewrite 2 [← header]
  simp [stream]

theorem prefix_before (mark : UInt8) (word left right : Bytes) (absent : mark ∉ word)
    (starts : word <+: left ++ mark :: right) : word <+: left := by
  induction word generalizing left with
  | nil => exact List.nil_prefix
  | cons letter rest ih =>
      cases left with
      | nil =>
          obtain ⟨same, _⟩ := List.cons_prefix_cons.mp starts
          exact False.elim (absent (by simp [same]))
      | cons first tail =>
          obtain ⟨same, deeper⟩ := List.cons_prefix_cons.mp starts
          exact List.cons_prefix_cons.mpr ⟨same, ih tail (by simp_all) deeper⟩

def Quiet (left : Bytes) : Prop := ∀ skipped, ¬ JoinsAtStart (left.drop skipped)

-- A frame starts with zeros and OP_JOIN has none, so what is left of one frame
-- and the start of the next do not make a header together.
theorem quiet_stream (left : Bytes) (frames : List JoinFrame) (quiet : Quiet left) (nonempty : left ≠ []) :
    ¬ JoinsAtStart (left ++ stream frames) := by
  rintro ⟨zeros, join⟩
  cases frames with
  | nil => exact quiet 0 ⟨by simpa [stream] using zeros, by simpa [stream] using join⟩
  | cons frame rest =>
      obtain ⟨length, tail, starts⟩ := stream_starts frame rest
      rw [starts] at zeros join
      match left with
      | [] => exact nonempty rfl
      | [_] =>
          revert join
          simp [opJoinBytes, asciiBytes]
      | [_, _] =>
          revert join
          simp [opJoinBytes, asciiBytes]
      | [_, _, _] =>
          revert join
          simp [opJoinBytes, asciiBytes]
      | b1 :: b2 :: b3 :: b4 :: more =>
          refine quiet 0 ⟨by simpa using zeros, ?_⟩
          exact prefix_before 0 opJoinBytes more _ (by decide +kernel) (by simpa using join)

theorem frame_tail_quiet (frame : JoinFrame) (single : NoSecondJoin frame) : Quiet (frame.bytes.drop 1) := by
  intro skipped
  rw [List.drop_drop]
  exact single _ (by omega)

theorem drop_into_frame (frame : JoinFrame) (rest : List JoinFrame) (n : Nat) (positive : 1 ≤ n) :
    (stream (frame :: rest)).drop n = (frame.bytes.drop 1 ++ stream rest).drop (n - 1) := by
  have nonempty : 1 ≤ frame.bytes.length := by
    rw [JoinFrame.bytes, List.length_append, frame_header_length]
    omega
  rw [← List.drop_append_of_le_length nonempty, List.drop_drop, Nat.add_sub_cancel' positive]
  rfl

theorem drop_stream (left : Bytes) (frames : List JoinFrame) (n : Nat) (quiet : Quiet left)
    (single : ∀ frame ∈ frames, NoSecondJoin frame) :
    ∃ left' frames', (left ++ stream frames).drop n = left' ++ stream frames' ∧ Quiet left' ∧
      (∀ frame ∈ frames', NoSecondJoin frame) ∧ frames'.length ≤ frames.length := by
  induction frames generalizing left n with
  | nil =>
      refine ⟨left.drop n, [], ?_, ?_, single, Nat.le_refl _⟩
      · simp [stream]
      · intro skipped
        rw [List.drop_drop]
        exact quiet _
  | cons frame rest ih =>
      by_cases inside : n ≤ left.length
      · refine ⟨left.drop n, frame :: rest, List.drop_append_of_le_length inside, ?_, single, Nat.le_refl _⟩
        intro skipped
        rw [List.drop_drop]
        exact quiet _
      · obtain ⟨left', frames', split, quiet', single', fewer⟩ :=
          ih (frame.bytes.drop 1) (n - left.length - 1) (frame_tail_quiet frame (single frame (by simp)))
            (fun other member => single other (by simp [member]))
        refine ⟨left', frames', ?_, quiet', single', by rw [List.length_cons]; omega⟩
        rw [List.drop_append, List.drop_eq_nil_of_le (by omega), List.nil_append,
          drop_into_frame frame rest _ (by omega), split]

theorem drop_started (frame : JoinFrame) (rest : List JoinFrame) (n : Nat) (positive : 1 ≤ n)
    (single : ∀ other ∈ frame :: rest, NoSecondJoin other) :
    ∃ left frames, (stream (frame :: rest)).drop n = left ++ stream frames ∧ Quiet left ∧
      (∀ other ∈ frames, NoSecondJoin other) ∧ frames.length ≤ rest.length := by
  rw [drop_into_frame frame rest n positive]
  exact drop_stream (frame.bytes.drop 1) rest (n - 1) (frame_tail_quiet frame (single frame (by simp)))
    (fun other member => single other (by simp [member]))

variable {Ch : Type} [DecidableEq Ch]

def deliver (id : Ch → JString) (c : Ch) (s : Server Ch) (chunks : List Chunk) : Server Ch :=
  run (call id) s (chunks.map (.channelRead0 c))

theorem chunk_publishes_at_most_one (id : Ch → JString) (c : Ch) (s : Server Ch) (msg : Chunk) :
    (call id s (.channelRead0 c msg)).events.length ≤ s.events.length + 1 := by
  cases call_read_cases id s c msg with
  | quiet _ _ next =>
      simp [next]
  | joined _ next =>
      simp [next, joinedState]

theorem chunk_without_join_publishes_nothing (id : Ch → JString) (c : Ch) (s : Server Ch) (msg : Chunk)
    (unjoined : ∀ data, ¬ CompletesJoin (s.handler c).offset msg.bytes data) :
    (call id s (.channelRead0 c msg)).events = s.events := by
  cases call_read_cases id s c msg with
  | quiet _ _ next =>
      rw [next]
  | joined joins _ =>
      obtain ⟨data, completes, _⟩ := joins
      exact False.elim (unjoined data completes)

theorem quiet_chunk_publishes_nothing (id : Ch → JString) (c : Ch) (s : Server Ch) (msg : Chunk)
    (quiet : ¬ JoinsAtStart msg.bytes) : (call id s (.channelRead0 c msg)).events = s.events := by
  apply chunk_without_join_publishes_nothing
  rintro data ⟨header, dataSize, rest, bytes, short, join, _⟩
  exact quiet (bytes ▸ header_joins_at_start header (data ++ rest) dataSize short join)

-- Only a chunk that begins where a frame begins can complete a JOIN, whatever
-- has been accumulated, so there are no more events than frames ahead.
theorem events_at_most_frames (id : Ch → JString) (c : Ch) (chunks : List Chunk) (left : Bytes) (frames : List JoinFrame)
    (s : Server Ch) (nonempty : ∀ msg ∈ chunks, msg.bytes ≠ []) (quiet : Quiet left)
    (single : ∀ frame ∈ frames, NoSecondJoin frame)
    (cut : (chunks.map Chunk.bytes).flatten = left ++ stream frames) :
    (deliver id c s chunks).events.length ≤ s.events.length + frames.length := by
  induction chunks generalizing left frames s with
  | nil => exact Nat.le_add_right _ _
  | cons msg rest ih =>
      have whole : msg.bytes ++ (rest.map Chunk.bytes).flatten = left ++ stream frames := by
        rw [← cut, List.map_cons, List.flatten_cons]
      have remaining : (rest.map Chunk.bytes).flatten = (left ++ stream frames).drop msg.bytes.length := by
        rw [← whole, List.drop_left]
      have later : ∀ other ∈ rest, other.bytes ≠ [] := fun other member => nonempty other (by simp [member])
      cases left with
      | cons byte tail =>
          have silent : (call id s (.channelRead0 c msg)).events = s.events := by
            apply quiet_chunk_publishes_nothing
            intro joins
            exact quiet_stream (byte :: tail) frames quiet (by simp) (whole ▸ joins_at_start_append msg.bytes _ joins)
          obtain ⟨left', frames', split, quiet', single', fewer⟩ :=
            drop_stream (byte :: tail) frames msg.bytes.length quiet single
          have bound := ih left' frames' (call id s (.channelRead0 c msg)) later quiet' single' (remaining.trans split)
          rw [silent] at bound
          exact Nat.le_trans bound (by omega)
      | nil =>
          have length : 1 ≤ msg.bytes.length := List.length_pos_of_ne_nil (nonempty msg (by simp))
          cases frames with
          | nil => exact False.elim (nonempty msg (by simp) (List.append_eq_nil_iff.mp whole).1)
          | cons frame others =>
              have once := chunk_publishes_at_most_one id c s msg
              obtain ⟨left', frames', split, quiet', single', fewer⟩ := drop_started frame others msg.bytes.length length single
              rw [List.nil_append, split] at remaining
              have bound := ih left' frames' (call id s (.channelRead0 c msg)) later quiet' single' remaining
              refine Nat.le_trans bound ?_
              rw [List.length_cons]
              omega

theorem frame_field_fits (frame : JoinFrame) : (encodeUtf8 frame.data).length < 2 ^ 31 := by
  have fits := frame.fits
  rw [List.length_append] at fits
  omega

theorem frame_completes (frame : JoinFrame) : CompletesJoin 0 frame.bytes (encodeUtf8 frame.data) := by
  have completes := completes_whole_join frame.header (encodeUtf8 frame.data) [] frame.short
    ((starts_with_join frame.header).mpr frame.join) (by rw [List.append_nil]; exact frame_field_fits frame)
  rwa [List.append_nil] at completes

-- The accumulated offset never reaches the announced length when the last
-- bytes of the frame are missing.
theorem cut_frame_incomplete (frame : JoinFrame) (front missing data : Bytes) (cut : frame.bytes = front ++ missing)
    (proper : missing ≠ []) : ¬ CompletesJoin 0 front data := by
  rintro ⟨header, dataSize, rest, rfl, short, join, ⟨low, high⟩, _, whole⟩
  have fits := frame_field_fits frame
  have decoded := join_header_frame frame.header (encodeUtf8 frame.data) (encodeUtf8 frame.data).length frame.short
    ((starts_with_join frame.header).mpr frame.join) (by omega) (by omega)
  change joinHeader frame.bytes = _ at decoded
  rw [cut, List.append_assoc, join_header_frame header _ dataSize short join low high] at decoded
  obtain ⟨sizeEq, fieldEq⟩ := Prod.mk.inj (Option.some.inj decoded)
  have length := congrArg List.length fieldEq
  rw [List.length_append, List.length_append] at length
  have positive := List.length_pos_of_ne_nil proper
  rw [to_long_small _ (by omega) (by omega)] at whole
  omega

theorem frame_joins (id : Ch → JString) (c : Ch) (s : Server Ch) (msg : Chunk) (frame : JoinFrame)
    (fresh : (s.handler c).offset = 0) (same : msg.bytes = frame.bytes) :
    (call id s (.channelRead0 c msg)).events.length = s.events.length + 1 ∧
      ((call id s (.channelRead0 c msg)).handler c).offset = 0 := by
  have delivered : delivery (s.handler c).offset msg.bytes = .joined (encodeUtf8 frame.data) := by
    rw [fresh, same]
    exact (delivery_joined_iff _ _ _).mpr (frame_completes frame)
  have read := (channel_read_spec (id c) (s.handler c) msg).refines
  rw [delivered] at read
  have offset : (afterRead id s c msg).offset = 0 := congrArg (fun pair => pair.1.offset) read
  cases call_read_cases id s c msg with
  | quiet quiet _ _ =>
      exact False.elim (quiet _ ⟨_, (delivery_joined_iff _ _ _).mp delivered, rfl⟩)
  | joined _ next =>
      rw [next]
      simp [joinedState, offset]

theorem whole_frames_join (id : Ch → JString) (c : Ch) (frames : List JoinFrame) (s : Server Ch)
    (fresh : (s.handler c).offset = 0) :
    (deliver id c s (frames.map JoinFrame.chunk)).events.length = s.events.length + frames.length := by
  induction frames generalizing s with
  | nil => rfl
  | cons frame rest ih =>
      obtain ⟨published, again⟩ := frame_joins id c s frame.chunk frame fresh rfl
      have later := ih (call id s (.channelRead0 c frame.chunk)) again
      rw [published] at later
      rw [List.length_cons]
      exact later.trans (by omega)

-- A first chunk that ends inside the frame publishes nothing, and what is left
-- of the frame starts no other.
theorem shorter_chunk_loses (id : Ch → JString) (c : Ch) (frame : JoinFrame) (others : List JoinFrame) (msg : Chunk)
    (rest : List Chunk) (s : Server Ch) (fresh : (s.handler c).offset = 0) (positive : 1 ≤ msg.bytes.length)
    (nonempty : ∀ other ∈ rest, other.bytes ≠ [])
    (single : ∀ other ∈ frame :: others, NoSecondJoin other)
    (bytes : msg.bytes ++ (rest.map Chunk.bytes).flatten = frame.bytes ++ stream others)
    (shorter : msg.bytes.length < frame.bytes.length) :
    (deliver id c s (msg :: rest)).events.length ≤ s.events.length + others.length := by
  obtain ⟨missing, frameEq, restEq⟩ := List.append_eq_append_iff.mp bytes |>.resolve_right (by
    rintro ⟨extra, msgEq, _⟩
    rw [msgEq, List.length_append] at shorter
    omega)
  have proper : missing ≠ [] := by
    rintro rfl
    rw [frameEq, List.append_nil] at shorter
    omega
  have silent : (call id s (.channelRead0 c msg)).events = s.events := by
    apply chunk_without_join_publishes_nothing
    intro data
    rw [fresh]
    exact cut_frame_incomplete frame msg.bytes missing data frameEq proper
  have quiet : Quiet missing := by
    intro skipped
    have dropped := single frame (by simp) (msg.bytes.length + skipped) (by omega)
    rwa [frameEq, ← List.drop_drop, List.drop_left] at dropped
  have bound := events_at_most_frames id c rest missing others (call id s (.channelRead0 c msg)) nonempty quiet
    (fun other member => single other (by simp [member])) restEq
  rw [silent] at bound
  exact bound

-- A first chunk that runs on into the next frame has swallowed its header.
theorem longer_chunk_loses (id : Ch → JString) (c : Ch) (frame : JoinFrame) (others : List JoinFrame) (msg : Chunk)
    (rest : List Chunk) (s : Server Ch) (nonempty : ∀ other ∈ rest, other.bytes ≠ [])
    (single : ∀ other ∈ others, NoSecondJoin other)
    (bytes : msg.bytes ++ (rest.map Chunk.bytes).flatten = frame.bytes ++ stream others)
    (longer : frame.bytes.length < msg.bytes.length) :
    (deliver id c s (msg :: rest)).events.length ≤ s.events.length + others.length := by
  have once := chunk_publishes_at_most_one id c s msg
  have remaining : (rest.map Chunk.bytes).flatten = (stream others).drop (msg.bytes.length - frame.bytes.length) := by
    have dropped := congrArg (List.drop msg.bytes.length) bytes
    rw [List.drop_left, List.drop_append, List.drop_eq_nil_of_le (by omega), List.nil_append] at dropped
    exact dropped
  cases others with
  | nil =>
      have length := congrArg List.length bytes
      simp [stream] at length
      omega
  | cons second more =>
      obtain ⟨left, frames, split, quiet, single', fewer⟩ :=
        drop_started second more (msg.bytes.length - frame.bytes.length) (by omega) single
      have bound := events_at_most_frames id c rest left frames (call id s (.channelRead0 c msg)) nonempty quiet single'
        (remaining.trans split)
      change (deliver id c (call id s (.channelRead0 c msg)) rest).events.length ≤ _
      rw [List.length_cons]
      omega

-- As many events as frames leave no other cut than the one at every boundary.
theorem all_frames_joined (id : Ch → JString) (c : Ch) (frames : List JoinFrame) (chunks : List Chunk) (s : Server Ch)
    (fresh : (s.handler c).offset = 0) (nonempty : ∀ msg ∈ chunks, msg.bytes ≠ [])
    (single : ∀ frame ∈ frames, NoSecondJoin frame) (cut : (chunks.map Chunk.bytes).flatten = stream frames)
    (published : (deliver id c s chunks).events.length = s.events.length + frames.length) :
    chunks.map Chunk.bytes = frames.map JoinFrame.bytes := by
  induction frames generalizing chunks s with
  | nil =>
      cases chunks with
      | nil => rfl
      | cons msg rest => exact False.elim (nonempty msg (by simp) (List.append_eq_nil_iff.mp cut).1)
  | cons frame others ih =>
      have singles : ∀ other ∈ others, NoSecondJoin other := fun other member => single other (by simp [member])
      cases chunks with
      | nil =>
          obtain ⟨length, tail, starts⟩ := stream_starts frame others
          rw [starts] at cut
          cases cut
      | cons msg rest =>
          have later : ∀ other ∈ rest, other.bytes ≠ [] := fun other member => nonempty other (by simp [member])
          have positive : 1 ≤ msg.bytes.length := List.length_pos_of_ne_nil (nonempty msg (by simp))
          have bytes : msg.bytes ++ (rest.map Chunk.bytes).flatten = frame.bytes ++ stream others := by simpa [stream] using cut
          rw [List.length_cons] at published
          rcases Nat.lt_trichotomy msg.bytes.length frame.bytes.length with shorter | equal | longer
          · have bound := shorter_chunk_loses id c frame others msg rest s fresh positive later single bytes shorter
            omega
          · obtain ⟨same, restEq⟩ := List.append_inj bytes equal
            obtain ⟨once, again⟩ := frame_joins id c s msg frame fresh same
            change (deliver id c (call id s (.channelRead0 c msg)) rest).events.length = _ at published
            rw [List.map_cons, List.map_cons, same]
            rw [ih rest _ again later singles restEq (by omega)]
          · have bound := longer_chunk_loses id c frame others msg rest s later singles bytes longer
            omega

structure SameRegistration (c : Ch) (s t : Server Ch) : Prop where
  agentName : (s.handler c).agentName = (t.handler c).agentName
  map : s.map = t.map
  events : s.events = t.events

-- The unrestricted converse is false: a frame that carries the header of a
-- second one can be read from the middle with the same outcome.
theorem segments_register_as_frames (id : Ch → JString) (c : Ch) (s : Server Ch) (fresh : s.handler c = {})
    (frames : List JoinFrame) (chunks : List Chunk) (nonempty : ∀ msg ∈ chunks, msg.bytes ≠ [])
    (cut : (chunks.map Chunk.bytes).flatten = stream frames) :
    (chunks.map Chunk.bytes = frames.map JoinFrame.bytes →
      SameRegistration c (deliver id c s chunks) (deliver id c s (frames.map JoinFrame.chunk))) ∧
    ((∀ frame ∈ frames, NoSecondJoin frame) →
      SameRegistration c (deliver id c s chunks) (deliver id c s (frames.map JoinFrame.chunk)) →
        chunks.map Chunk.bytes = frames.map JoinFrame.bytes) := by
  have noOffset : (s.handler c).offset = 0 := by rw [fresh]
  constructor
  · intro aligned
    have same : chunks = frames.map JoinFrame.chunk := by
      have injective : Function.Injective Chunk.bytes := by
        rintro ⟨a, _⟩ ⟨b, _⟩ rfl
        rfl
      apply List.map_injective_iff.mpr injective
      rw [aligned, List.map_map]
      rfl
    rw [same]
    exact ⟨rfl, rfl, rfl⟩
  · intro single same
    apply all_frames_joined id c frames chunks s noOffset nonempty single cut
    rw [same.events]
    exact whole_frames_join id c frames s noOffset

def sampleFrame : JoinFrame where
  header := opJoinBytes
  short := by decide +kernel
  join := List.prefix_refl _
  data := ['a']
  fits := by decide +kernel

def renamingFrame : JoinFrame where
  header := opJoinBytes
  short := by decide +kernel
  join := List.prefix_refl _
  data := ['b']
  fits := by decide +kernel

theorem aligned_sample_registers :
    (([sampleFrame.chunk, renamingFrame.chunk].map Chunk.bytes = [sampleFrame, renamingFrame].map JoinFrame.bytes →
      SameRegistration 0 (deliver sampleId 0 start [sampleFrame.chunk, renamingFrame.chunk])
        (deliver sampleId 0 start ([sampleFrame, renamingFrame].map JoinFrame.chunk))) ∧
    ((∀ frame ∈ [sampleFrame, renamingFrame], NoSecondJoin frame) →
      SameRegistration 0 (deliver sampleId 0 start [sampleFrame.chunk, renamingFrame.chunk])
        (deliver sampleId 0 start ([sampleFrame, renamingFrame].map JoinFrame.chunk)) →
        [sampleFrame.chunk, renamingFrame.chunk].map Chunk.bytes = [sampleFrame, renamingFrame].map JoinFrame.bytes)) :=
  segments_register_as_frames sampleId 0 start rfl [sampleFrame, renamingFrame] [sampleFrame.chunk, renamingFrame.chunk]
    (by simp only [List.forall_mem_cons, List.not_mem_nil, false_imp_iff, implies_true, and_true]; decide +kernel)
    (by decide +kernel)

def splitLength : List Chunk :=
  [⟨sampleFrame.bytes.take 1, by decide +kernel⟩, ⟨sampleFrame.bytes.drop 1, by decide +kernel⟩]

theorem split_length_field_loses_join :
    (splitLength.map Chunk.bytes).flatten = stream [sampleFrame] ∧ (∀ msg ∈ splitLength, msg.bytes ≠ []) ∧
      ¬ SameRegistration 0 (deliver sampleId 0 start splitLength)
        (deliver sampleId 0 start ([sampleFrame].map JoinFrame.chunk)) := by
  refine ⟨by decide +kernel, by simp [splitLength]; decide +kernel, fun same => ?_⟩
  have names := same.agentName
  revert names
  decide +kernel

end Nenes
