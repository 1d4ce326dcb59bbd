import Mathlib.Data.List.Induction
import Nenes.Base.BufferedFrames
import Nenes.PairedWrites

set_option autoImplicit false

namespace Nenes

open ByteBuf SplitFrames Runs

variable {Ch : Type} [DecidableEq Ch]

structure Write where
  request : Nat
  part : Part
  buf : Bytes
deriving DecidableEq, Repr

def Observation.writeOn (ch : Ch) : Observation Ch → Option Write
  | .queued n other part buf => if other = ch then some ⟨n, part, buf⟩ else none
  | _ => none

def writesOn (ch : Ch) (log : List (Observation Ch)) : List Write := log.filterMap (Observation.writeOn ch)

def bufferWrite (flushes : Write → Bool) (buffer : Buffer UInt8) (write : Write) : Buffer UInt8 :=
  if flushes write then (buffer.write write.buf).flush else buffer.write write.buf

-- The outbound buffer of a channel after these writes.
def buffered (flushes : Write → Bool) (writes : List Write) : Buffer UInt8 := writes.foldl (bufferWrite flushes) .empty

theorem buffered_snoc (flushes : Write → Bool) (writes : List Write) (write : Write) :
    buffered flushes (writes ++ [write]) = bufferWrite flushes (buffered flushes writes) write := List.foldl_concat ..

-- A flush leaves nothing, and a write without one leaves what it has written.
theorem last_write_waits (flushes : Write → Bool) (writes : List Write)
    (filled : ∀ write ∈ writes, flushes write = false → write.buf ≠ []) :
    (buffered flushes writes).waiting ≠ [] ↔ ∃ write, writes.getLast? = some write ∧ flushes write = false := by
  cases writes using List.reverseRecOn with
  | nil => simp [buffered, Buffer.empty]
  | append_singleton earlier last =>
      rw [buffered_snoc, bufferWrite, List.getLast?_concat]
      cases flushed : flushes last with
      | true => simp [Buffer.flush, flushed]
      | false => simp [Buffer.write, flushed, filled last (by simp) flushed]

def Program.writeOn (ch : Ch) (n : Nat) : Program Ch → Option Write
  | .writeAndFlush other part buf _ _ => if other = ch then some ⟨n, part, buf⟩ else none
  | _ => none

theorem observed_write (env : Env Ch) (ch : Ch) (n : Nat) (program : Program Ch) :
    writesOn ch (program.observed env n) = (program.writeOn ch n).toList := by
  cases program with
  | writeAndFlush other part buf listener next =>
      by_cases here : other = ch
      · simp [Program.observed, Program.writeOn, writesOn, Observation.writeOn, here]
      · simp [Program.observed, Program.writeOn, writesOn, Observation.writeOn, here]
  | _ => rfl

-- Moves tells the bytes of a call apart, and this its write: an empty body is
-- written too.
inductive ProgramWrites (env : Env Ch) (ch : Ch) (n : Nat) (program : Program Ch) : Prop where
  | silent (written : program.writeOn ch n = none)
      (bodies : bodiesLeft env ch program = (bodyDue env ch program).toList)
      (frames : framesOn env ch program = framesOn env ch (program.next env))
  | head (frame : Frame UInt8) (starts : startsHeader ch program = true)
      (written : program.writeOn ch n = some ⟨n, .header, frame.head⟩) (free : bodyDue env ch program = none)
      (bodies : bodiesLeft env ch program = [frame.body])
      (frames : framesOn env ch program = frame :: framesOn env ch (program.next env))
  | body (buf : Bytes) (written : program.writeOn ch n = some ⟨n, .body, buf⟩)
      (announced : bodyDue env ch program = some buf) (bodies : bodiesLeft env ch program = [])
      (frames : framesOn env ch program = framesOn env ch (program.next env))

theorem program_writes (env : Env Ch) (ch : Ch) (n : Nat) (program : Program Ch) (paired : Paired env program) :
    ProgramWrites env ch n program := by
  cases program with
  | writeAndFlush other part buf listener next =>
      have moves := program_moves env ch n (.writeAndFlush other part buf listener next) paired
      by_cases here : other = ch
      · have written : (Program.writeAndFlush other part buf listener next).writeOn ch n = some ⟨n, part, buf⟩ := if_pos here
        have bytes : bytesOn ch ((Program.writeAndFlush other part buf listener next).observed env n) = buf := by
          simp [bytesOn, Program.observed, Observation.bytesOn, here]
        cases part with
        | header =>
            cases moves with
            | silent _ _ frames => simp [framesOn, Program.next, here] at frames
            | head frame starts observed free bodies frames =>
                exact .head frame starts (by rw [written, ← observed, bytes]) free bodies frames
            | body _ _ announced _ _ => simp [bodyDue] at announced
        | body =>
            have due : bodyDue env ch (.writeAndFlush other .body buf listener next) = some buf := if_pos ⟨rfl, here⟩
            cases moves with
            | silent _ bodies _ =>
                have left : bodiesLeft env ch (.writeAndFlush other .body buf listener next) = [] := by
                  rw [← paired.2.2.2 ch]
                  simp [bodiesLeft, bodiesAfter, Program.listeners, Program.next]
                rw [left, due] at bodies
                cases bodies
            | head _ starts _ _ _ _ => simp [startsHeader] at starts
            | body _ _ _ bodies frames => exact .body buf written due bodies frames
      · have written : (Program.writeAndFlush other part buf listener next).writeOn ch n = none := if_neg here
        cases moves with
        | silent _ bodies frames => exact .silent written bodies frames
        | head _ starts _ _ _ _ => simp [startsHeader, here] at starts
        | body _ _ announced _ _ => simp [bodyDue, here] at announced
  | _ => exact .silent rfl rfl rfl

inductive PoolWrites (env : Env Ch) (ch : Ch) (pool next : Pool Ch) (i : Nat) : Prop where
  | silent (writes : writesOn ch next.log = writesOn ch pool.log)
      (bodies : (due env ch next.tasks).Perm (due env ch pool.tasks))
      (frames : SameFrames (remaining env ch pool.tasks) (remaining env ch next.tasks))
  | head (n : Nat) (frame : Frame UInt8)
      (starts : ∃ task, pool.tasks[i]? = some task ∧ startsHeader ch task.program = true)
      (writes : writesOn ch next.log = writesOn ch pool.log ++ [⟨n, .header, frame.head⟩])
      (bodies : (due env ch next.tasks).Perm (frame.body :: due env ch pool.tasks))
      (frames : StartsFrame frame (remaining env ch pool.tasks) (remaining env ch next.tasks))
  | body (n : Nat) (buf : Bytes) (writes : writesOn ch next.log = writesOn ch pool.log ++ [⟨n, .body, buf⟩])
      (bodies : (due env ch pool.tasks).Perm (buf :: due env ch next.tasks))
      (frames : SameFrames (remaining env ch pool.tasks) (remaining env ch next.tasks))

theorem proceed_writes (env : Env Ch) (ch : Ch) (pool : Pool Ch) (i : Nat) (paired : AllPaired env pool.tasks) :
    PoolWrites env ch pool (pool.proceed env i) i := by
  cases Pool.proceed_cases env pool i with
  | idle same =>
      rw [same]
      exact .silent rfl (List.Perm.refl _) ⟨[], by simp⟩
  | taken left task right found tasks after log =>
      have taskPaired := paired task (by simp [tasks])
      have writes : writesOn ch (pool.proceed env i).log =
          writesOn ch pool.log ++ (task.program.writeOn ch task.request).toList := by
        rw [log, ← observed_write env]
        exact List.filterMap_append
      have before := due_before env ch left right task
      have later := due_after env ch left right task
      have started := remaining_before env ch left right task
      have rest := remaining_after env ch left right task taskPaired
      rw [← tasks] at before started
      rw [tasksAfter, ← after] at later rest
      cases program_writes env ch task.request task.program taskPaired with
      | silent written bodies frames =>
          rw [written] at writes
          rw [← frames, ← started] at rest
          rw [bodies] at later
          exact .silent (writes.trans (List.append_nil _)) (later.trans before.symm) rest
      | head frame starts written free bodies frames =>
          rw [written] at writes
          rw [free] at before
          rw [bodies] at later
          rw [frames] at started
          exact .head task.request frame ⟨task, found, starts⟩ writes (later.trans (before.symm.cons _)) ⟨_, _, _, started, rest⟩
      | body buf written announced bodies frames =>
          rw [written] at writes
          rw [announced] at before
          rw [bodies] at later
          rw [← frames, ← started] at rest
          exact .body task.request buf writes (before.trans (later.symm.cons _)) rest

-- What is written of the frames, sent or held back, and what is left of them.
structure Delivering (env : Env Ch) (ch : Ch) (flushes : Write → Bool) (total : List (Frame UInt8)) (pool : Pool Ch)
    (started : List (Frame UInt8)) : Prop where
  paired : AllPaired env pool.tasks
  held : Held (buffered flushes (writesOn ch pool.log)) started (due env ch pool.tasks)
  frames : (started ++ (remaining env ch pool.tasks).flatten).Perm total
  announced : ∀ body ∈ due env ch pool.tasks, ∃ frame ∈ started, frame.body = body
  written : ∀ write ∈ writesOn ch pool.log, write.part = .body → ∃ frame ∈ started, frame.body = write.buf

theorem delivering_proceed (env : Env Ch) (ch : Ch) (flushes : Write → Bool)
    (heads : ∀ n buf, flushes ⟨n, .header, buf⟩ = true) (total : List (Frame UInt8)) (pool : Pool Ch) (i : Nat)
    (delivering : ∃ started, Delivering env ch flushes total pool started) (guarded : KeepsFramesWhole env ch pool i) :
    ∃ started, Delivering env ch flushes total (pool.proceed env i) started := by
  obtain ⟨started, before⟩ := delivering
  have paired := all_paired_proceed env pool i before.paired
  cases proceed_writes env ch pool i before.paired with
  | silent writes bodies frames =>
      refine ⟨started, paired, ?_, ?_, fun body member => before.announced body (bodies.mem_iff.mp member), ?_⟩
      · rw [writes]
        exact held_perm _ _ _ _ bodies.symm before.held
      · rw [same_frames_flatten _ _ frames]
        exact before.frames
      · rw [writes]
        exact before.written
  | head n frame starts writes bodies frames =>
      obtain ⟨task, found, header⟩ := starts
      have none := guarded (by simpa [found] using header)
      refine ⟨started ++ [frame], paired, ?_, ?_, fun body member => ?_, fun write member isBody => ?_⟩
      · rw [writes, buffered_snoc, bufferWrite, if_pos (heads n frame.head)]
        exact held_perm _ _ _ _ bodies.symm (held_head _ _ _ frame before.held none)
      · rw [List.append_assoc]
        exact ((starts_frame_flatten frame _ _ frames).append_left started).trans before.frames
      · rcases List.mem_cons.mp (bodies.mem_iff.mp member) with rfl | earlier
        · exact ⟨frame, by simp, rfl⟩
        · obtain ⟨other, inside, same⟩ := before.announced body earlier
          exact ⟨other, List.mem_append_left _ inside, same⟩
      · rw [writes] at member
        rcases List.mem_append.mp member with earlier | now
        · obtain ⟨other, inside, same⟩ := before.written write earlier isBody
          exact ⟨other, List.mem_append_left _ inside, same⟩
        · rw [List.mem_singleton.mp now] at isBody
          cases isBody
  | body n buf writes bodies frames =>
      have wrote := held_body _ _ _ buf (held_perm _ _ _ _ bodies before.held)
      refine ⟨started, paired, ?_, ?_, fun body member => ?_, fun write member isBody => ?_⟩
      · rw [writes, buffered_snoc, bufferWrite]
        split
        · exact held_flush _ _ _ wrote
        · exact wrote
      · rw [same_frames_flatten _ _ frames]
        exact before.frames
      · exact before.announced body (bodies.mem_iff.mpr (List.mem_cons_of_mem buf member))
      · rw [writes] at member
        rcases List.mem_append.mp member with earlier | now
        · exact before.written write earlier isBody
        · rw [List.mem_singleton.mp now]
          exact before.announced buf (bodies.mem_iff.mpr List.mem_cons_self)

theorem start_due (env : Env Ch) (ch : Ch) (programs : List (Program Ch))
    (free : ∀ program ∈ programs, bodyDue env ch program = none) : due env ch (Pool.start programs).tasks = [] := by
  rw [due, List.flatMap_eq_nil_iff]
  intro task member
  have inside : task.program ∈ programs := by
    rw [← Pool.start_programs programs]
    exact List.mem_map_of_mem member
  rw [free _ inside]
  rfl

theorem delivering_start (env : Env Ch) (ch : Ch) (flushes : Write → Bool) (programs : List (Program Ch))
    (paired : ∀ program ∈ programs, Paired env program) (free : ∀ program ∈ programs, bodyDue env ch program = none) :
    Delivering env ch flushes (programs.flatMap (framesOn env ch)) (Pool.start programs) [] where
  paired := (frames_whole_start env ch programs paired free).paired
  held := by
    rw [start_due env ch programs free]
    exact held_empty
  frames := by rw [List.nil_append, start_remaining, List.flatMap_def]
  announced := by simp [start_due env ch programs free]
  written := by simp [Pool.start, writesOn]

theorem delivering_run (env : Env Ch) (ch : Ch) (flushes : Write → Bool) (heads : ∀ n buf, flushes ⟨n, .header, buf⟩ = true)
    (programs : List (Program Ch)) (paired : ∀ program ∈ programs, Paired env program)
    (free : ∀ program ∈ programs, bodyDue env ch program = none) (schedule : List Nat)
    (guarded : Along (Pool.proceed env) (KeepsFramesWhole env ch) (Pool.start programs) schedule) :
    ∃ started, Delivering env ch flushes (programs.flatMap (framesOn env ch))
      (run (Pool.proceed env) (Pool.start programs) schedule) started :=
  invariant_along (Pool.proceed env) (KeepsFramesWhole env ch) _ (delivering_proceed env ch flushes heads _) _ schedule
    ⟨[], delivering_start env ch flushes programs paired free⟩ guarded

end Nenes
