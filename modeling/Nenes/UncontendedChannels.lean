import Nenes.MixedFrames

set_option autoImplicit false

namespace Nenes

open ByteBuf SplitFrames Runs

variable {Ch : Type} [DecidableEq Ch]

structure Silent (env : Env Ch) (ch : Ch) (program : Program Ch) : Prop where
  frames : framesOn env ch program = []
  free : bodyDue env ch program = none

def KeepsOwnBodies (env : Env Ch) (ch : Ch) : Program Ch → Prop
  | .done => True
  | .raise _ => True
  | .get element next => KeepsOwnBodies env ch (next (env.get element))
  | .isActive other next => KeepsOwnBodies env ch (next (env.isActive other))
  | .read path next => KeepsOwnBodies env ch (next (env.read path))
  | .publishEvent _ next => KeepsOwnBodies env ch next
  | .writeAndFlush _ _ _ listener next => Silent env ch listener ∧ KeepsOwnBodies env ch next

theorem silent_next (env : Env Ch) (ch : Ch) (program : Program Ch) (paired : Paired env program) (silent : Silent env ch program) :
    Silent env ch (program.next env) ∧ ∀ listener ∈ program.listeners, Silent env ch listener := by
  cases program_moves env ch 0 program paired with
  | silent _ bodies frames =>
      rw [silent.free, bodiesLeft, Option.toList_none, List.append_eq_nil_iff, List.flatMap_eq_nil_iff] at bodies
      refine ⟨⟨frames.symm.trans silent.frames, by simpa using bodies.2⟩, fun listener member => ⟨?_, ?_⟩⟩
      · exact listeners_start_nothing env ch program paired listener member
      · simpa using bodies.1 listener member
  | head frame _ _ _ _ frames =>
      rw [silent.frames] at frames
      cases frames
  | body buf _ announced _ _ =>
      rw [silent.free] at announced
      cases announced

theorem own_bodies_next (env : Env Ch) (ch : Ch) (program : Program Ch) (own : KeepsOwnBodies env ch program) :
    KeepsOwnBodies env ch (program.next env) ∧ ∀ listener ∈ program.listeners, Silent env ch listener := by
  cases program with
  | writeAndFlush other part buf listener next =>
      simp only [Program.listeners, List.mem_singleton, forall_eq]
      exact ⟨own.2, own.1⟩
  | _ => exact ⟨own, by simp [Program.listeners]⟩

theorem skips_own_bodies (env : Env Ch) (ch : Ch) (program last : Program Ch) (skips : Skips env program last)
    (own : KeepsOwnBodies env ch last) : KeepsOwnBodies env ch program := by
  induction skips with
  | here program => exact own
  | get element next last rest ih => exact ih own
  | isActive other next last rest ih => exact ih own
  | read path next last rest ih => exact ih own

theorem send_loop_own_bodies (env : Env Ch) (ch : Ch) (msg : JString) (agentNames : List JString) :
    KeepsOwnBodies env ch (NOperationCommand.sendLoop msg agentNames) := by
  have done : Silent env ch (.done : Program Ch) := ⟨rfl, rfl⟩
  induction agentNames with
  | nil => trivial
  | cons element rest ih =>
      cases found : target env element with
      | none => exact skips_own_bodies env ch _ _ (send_loop_absent env msg element rest found) ih
      | some other => exact skips_own_bodies env ch _ _ (send_loop_present env other msg element rest found) ⟨done, done, ih⟩

-- The task at i may write on the channel, and no other one.
structure OneWriter (env : Env Ch) (ch : Ch) (i : Nat) (pool : Pool Ch) : Prop where
  paired : AllPaired env pool.tasks
  inside : i < pool.tasks.length
  owner : ∀ task, pool.tasks[i]? = some task → KeepsOwnBodies env ch task.program
  others : ∀ j task, j ≠ i → pool.tasks[j]? = some task → Silent env ch task.program

theorem listeners_silent (env : Env Ch) (ch : Ch) (i k : Nat) (pool : Pool Ch) (task : Task Ch) (one : OneWriter env ch i pool)
    (found : pool.tasks[k]? = some task) : ∀ listener ∈ task.program.listeners, Silent env ch listener := by
  by_cases own : k = i
  · subst own
    exact (own_bodies_next env ch task.program (one.owner task found)).2
  · exact (silent_next env ch task.program (one.paired task (List.mem_of_getElem? found)) (one.others k task own found)).2

omit [DecidableEq Ch] in
theorem task_after (env : Env Ch) (pool : Pool Ch) (k j : Nat) (task next : Task Ch) (found : pool.tasks[k]? = some task)
    (after : (pool.proceed env k).tasks[j]? = some next) :
    (j = k ∧ next.program = task.program.next env) ∨ (j ≠ k ∧ pool.tasks[j]? = some next) ∨
      (pool.tasks.length ≤ j ∧ next.program ∈ task.program.listeners) := by
  rw [Pool.proceed, found] at after
  simp only at after
  by_cases early : j < pool.tasks.length
  · rw [List.getElem?_append_left (by simpa using early)] at after
    by_cases here : j = k
    · subst here
      rw [List.getElem?_set_self early, Option.some.injEq] at after
      exact .inl ⟨rfl, by rw [← after]⟩
    · rw [List.getElem?_set_ne (Ne.symm here)] at after
      exact .inr (.inl ⟨here, after⟩)
  · rw [List.getElem?_append_right (by simpa using early)] at after
    obtain ⟨listener, member, rfl⟩ := List.mem_map.mp (List.mem_of_getElem? after)
    exact .inr (.inr ⟨Nat.le_of_not_lt early, member⟩)

theorem one_writer_proceed (env : Env Ch) (ch : Ch) (i k : Nat) (pool : Pool Ch) (one : OneWriter env ch i pool) :
    OneWriter env ch i (pool.proceed env k) := by
  cases found : pool.tasks[k]? with
  | none =>
      have same : pool.proceed env k = pool := by rw [Pool.proceed, found]
      rw [same]
      exact one
  | some task =>
      have listeners := listeners_silent env ch i k pool task one found
      refine ⟨all_paired_proceed env pool k one.paired, ?_, fun next after => ?_, fun j next other after => ?_⟩
      · rw [Pool.proceed, found]
        simpa using Nat.lt_add_right _ one.inside
      · rcases task_after env pool k i task next found after with ⟨rfl, program⟩ | ⟨_, before⟩ | ⟨late, _⟩
        · rw [program]
          exact (own_bodies_next env ch task.program (one.owner task found)).1
        · exact one.owner next before
        · exact absurd one.inside (Nat.not_lt.mpr late)
      · rcases task_after env pool k j task next found after with ⟨rfl, program⟩ | ⟨_, before⟩ | ⟨_, member⟩
        · rw [program]
          exact (silent_next env ch task.program (one.paired task (List.mem_of_getElem? found)) (one.others j task other found)).1
        · exact one.others j next other before
        · exact listeners _ member

theorem starting_header (env : Env Ch) (ch : Ch) (program : Program Ch) (starts : startsHeader ch program = true) :
    bodyDue env ch program = none ∧ framesOn env ch program ≠ [] := by
  cases program with
  | writeAndFlush other part buf listener next =>
      obtain ⟨rfl, rfl⟩ : part = .header ∧ other = ch := by simpa [startsHeader] using starts
      exact ⟨by simp [bodyDue], by simp [framesOn]⟩
  | _ => cases starts

-- Only the owner starts frames, and it has written the last one's body by then.
theorem one_writer_keeps_frames (env : Env Ch) (ch : Ch) (i k : Nat) (pool : Pool Ch) (one : OneWriter env ch i pool) :
    KeepsFramesWhole env ch pool k := by
  intro starts body member
  obtain ⟨task, found, header⟩ : ∃ task, pool.tasks[k]? = some task ∧ startsHeader ch task.program = true := by
    cases found : pool.tasks[k]? with
    | none => simp [found] at starts
    | some task => exact ⟨task, rfl, by simpa [found] using starts⟩
  obtain ⟨other, otherMember, announced⟩ := List.mem_flatMap.mp member
  obtain ⟨j, inside⟩ := List.getElem?_of_mem otherMember
  obtain ⟨free, frames⟩ := starting_header env ch task.program header
  have owner : k = i := Classical.byContradiction fun different => frames (one.others k task different found).frames
  by_cases same : j = i
  · rw [same, ← owner, found, Option.some.injEq] at inside
    rw [← inside, free] at announced
    cases announced
  · rw [(one.others j other same inside).free] at announced
    cases announced

theorem one_writer_schedule (env : Env Ch) (ch : Ch) (i : Nat) (pool : Pool Ch) (one : OneWriter env ch i pool)
    (schedule : List Nat) : Along (Pool.proceed env) (KeepsFramesWhole env ch) pool schedule :=
  along_mono (Pool.proceed env) (OneWriter env ch i) (fun _ _ => True) (KeepsFramesWhole env ch)
    (fun pool k one _ => one_writer_proceed env ch i k pool one) (fun pool k one _ => one_writer_keeps_frames env ch i k pool one)
    pool schedule one (along_of_forall _ _ pool schedule fun _ _ => trivial)

def FrameRequest.IsMessage : FrameRequest → Prop
  | .operation _ => True
  | .noperation _ => True
  | .nfile _ _ => False

theorem message_own_bodies [FileSystem] (env : Env Ch) (ch : Ch) (request : FrameRequest) (text : request.IsMessage) :
    KeepsOwnBodies env ch request.program := by
  cases request with
  | operation message =>
      by_cases missing : message.msg = none ∨ message.agent = none
      · rw [FrameRequest.program, OperationCommand.send_command_missing message missing]
        trivial
      · obtain ⟨hasText, hasNames⟩ := not_or.mp missing
        obtain ⟨msg, text⟩ := Option.ne_none_iff_exists'.mp hasText
        obtain ⟨agentNames, names⟩ := Option.ne_none_iff_exists'.mp hasNames
        rw [FrameRequest.program, OperationCommand.sendCommand, names, text]
        exact send_loop_own_bodies env ch msg agentNames
  | noperation message =>
      rw [FrameRequest.program]
      cases NOperationCommand.send_command_cases Ch message with
      | loops msg agentNames _ _ _ same =>
          rw [same]
          exact send_loop_own_bodies env ch msg agentNames
      | nothing _ _ same =>
          rw [same]
          trivial
      | watches _ same =>
          rw [same]
          trivial
  | nfile conf fileMessage => exact text.elim

theorem one_writer_start [FileSystem] (env : Env Ch) (ch : Ch) (before after : List FrameRequest) (request : FrameRequest)
    (text : request.IsMessage) (others : ∀ other ∈ before ++ after, other.sends env ch = []) :
    OneWriter env ch before.length (frameRequests (before ++ request :: after)) := by
  have programs : ∀ (j : Nat) (task : Task Ch), (frameRequests (before ++ request :: after)).tasks[j]? = some task →
      ((before ++ request :: after)[j]?).map FrameRequest.program = some task.program := by
    intro j task found
    have named := Pool.start_programs ((before ++ request :: after).map (FrameRequest.program : FrameRequest → Program Ch))
    have place := congrArg (fun programs => programs[j]?) named
    simp only [List.getElem?_map] at place
    rw [← place]
    exact congrArg (Option.map Task.program) found
  refine ⟨(frame_requests_whole env ch _).paired, ?_, fun task found => ?_, fun j task different found => ?_⟩
  · simp [frameRequests, Pool.start]
  · have own := programs _ _ found
    rw [List.getElem?_append_right (Nat.le_refl _), Nat.sub_self, List.getElem?_cons_zero, Option.map_some,
      Option.some.injEq] at own
    rw [← own]
    exact message_own_bodies env ch request text
  · obtain ⟨other, inside, program⟩ := Option.map_eq_some_iff.mp (programs j task found)
    have member : other ∈ before ++ after := by
      rcases Nat.lt_trichotomy j before.length with early | same | late
      · rw [List.getElem?_append_left early] at inside
        exact List.mem_append_left _ (List.mem_of_getElem? inside)
      · exact absurd same different
      · obtain ⟨n, shift⟩ := Nat.exists_eq_add_of_lt late
        have place : j - before.length = n + 1 := by omega
        rw [List.getElem?_append_right (by omega), place, List.getElem?_cons_succ] at inside
        exact List.mem_append_right _ (List.mem_of_getElem? inside)
    have framed := request_framed env other
    rw [← program]
    exact ⟨by rw [framed.frames, others other member, List.map_nil], framed.free ch⟩

-- No condition on the schedule: it is enough that the other requests have
-- nothing for this agent.
theorem uncontended_messages_arrive [FileSystem] (env : Env Ch) (ch : Ch) (before after : List FrameRequest)
    (request : FrameRequest) (text : request.IsMessage) (others : ∀ other ∈ before ++ after, other.sends env ch = [])
    (sound : ∀ frame ∈ request.sends env ch, frame.Sound) (schedule : List Nat) :
    FramesArrive env ch (request.sends env ch)
      (run (Pool.proceed env) (frameRequests (before ++ request :: after)) schedule) := by
  obtain ⟨first, last⟩ := List.forall_mem_append.mp others
  have owed : ((before ++ request :: after).flatMap fun other => other.sends env ch) = request.sends env ch := by
    rw [List.flatMap_append, List.flatMap_cons, List.flatMap_eq_nil_iff.mpr first, List.flatMap_eq_nil_iff.mpr last,
      List.nil_append, List.append_nil]
  apply sent_frames_arrive env ch _ _ sound
  rw [← owed]
  apply frames_sent env ch _ _ schedule (frame_requests_whole env ch _) (frame_requests_remaining env ch _)
  exact one_writer_schedule env ch before.length _ (one_writer_start env ch before after request text others) schedule

def twoAgents : Env Nat where
  get element := if element = ofString "a(d53f5b8e)" then some 0 else if element = ofString "b(0c1a77f2)" then some 1 else none
  isActive _ := true
  read _ := none

def requestTo (element msg : String) : FrameRequest := .noperation ⟨some (ofString msg), some [ofString element]⟩

open Unix

-- The same interleaving tears two requests for one agent.
theorem two_agents_uncontended :
    FramesArrive twoAgents 1 ((requestTo "b(0c1a77f2)" "ps").sends twoAgents 1)
      (run (Pool.proceed twoAgents)
        (frameRequests ([requestTo "a(d53f5b8e)" "ls"] ++ requestTo "b(0c1a77f2)" "ps" :: [])) [0, 0, 1, 1, 0, 1, 0, 1]) :=
  uncontended_messages_arrive twoAgents 1 [requestTo "a(d53f5b8e)" "ls"] [] (requestTo "b(0c1a77f2)" "ps") trivial
    (by decide +kernel) (by decide +kernel) [0, 0, 1, 1, 0, 1, 0, 1]

end Nenes
