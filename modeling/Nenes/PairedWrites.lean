import Nenes.Base.Runs
import Nenes.Base.SplitFrames
import Nenes.Program

set_option autoImplicit false

namespace Nenes

open ByteBuf SplitFrames Runs

variable {Ch : Type} [DecidableEq Ch]

def bodyDue (env : Env Ch) (ch : Ch) : Program Ch → Option Bytes
  | .done => none
  | .raise _ => none
  | .get element next => bodyDue env ch (next (env.get element))
  | .isActive other next => bodyDue env ch (next (env.isActive other))
  | .read path next => bodyDue env ch (next (env.read path))
  | .publishEvent _ next => bodyDue env ch next
  | .writeAndFlush other part buf _ _ => if part = .body ∧ other = ch then some buf else none

-- The frames a program starts on a channel. The body is the one its header's
-- listener writes, or the program itself right after the header.
def framesOn (env : Env Ch) (ch : Ch) : Program Ch → List (Frame UInt8)
  | .done => []
  | .raise _ => []
  | .get element next => framesOn env ch (next (env.get element))
  | .isActive other next => framesOn env ch (next (env.isActive other))
  | .read path next => framesOn env ch (next (env.read path))
  | .publishEvent _ next => framesOn env ch next
  | .writeAndFlush other part buf listener next =>
      if part = .header ∧ other = ch then
        ⟨buf, ((bodyDue env ch listener).or (bodyDue env ch next)).getD []⟩ :: framesOn env ch next
      else framesOn env ch next

inductive Skips (env : Env Ch) : Program Ch → Program Ch → Prop where
  | here (program : Program Ch) : Skips env program program
  | get (element : JString) (next : Option Ch → Program Ch) (last : Program Ch)
      (rest : Skips env (next (env.get element)) last) : Skips env (.get element next) last
  | isActive (ch : Ch) (next : Bool → Program Ch) (last : Program Ch)
      (rest : Skips env (next (env.isActive ch)) last) : Skips env (.isActive ch next) last
  | read (path : JString) (next : Option Bytes → Program Ch) (last : Program Ch)
      (rest : Skips env (next (env.read path)) last) : Skips env (.read path next) last

def bodiesAfter (env : Env Ch) (listener next : Program Ch) (other : Ch) : List Bytes :=
  (bodyDue env other listener).toList ++ (bodyDue env other next).toList

-- Every header is followed by one body, in its listener or in the program, and
-- a body by no other body.
def Paired (env : Env Ch) : Program Ch → Prop
  | .done => True
  | .raise _ => True
  | .get element next => Paired env (next (env.get element))
  | .isActive other next => Paired env (next (env.isActive other))
  | .read path next => Paired env (next (env.read path))
  | .publishEvent _ next => Paired env next
  | .writeAndFlush ch part _ listener next =>
      Paired env listener ∧ Paired env next ∧ (∀ other, framesOn env other listener = []) ∧
        match part with
        | .header => ∃ body, ∀ other, bodiesAfter env listener next other = if other = ch then [body] else []
        | .body => ∀ other, bodiesAfter env listener next other = []

theorem skips_due (env : Env Ch) (ch : Ch) (program last : Program Ch) (skips : Skips env program last) :
    bodyDue env ch program = bodyDue env ch last := by
  induction skips with
  | here program => rfl
  | get element next last rest ih => exact ih
  | isActive other next last rest ih => exact ih
  | read path next last rest ih => exact ih

theorem skips_frames (env : Env Ch) (ch : Ch) (program last : Program Ch) (skips : Skips env program last) :
    framesOn env ch program = framesOn env ch last := by
  induction skips with
  | here program => rfl
  | get element next last rest ih => exact ih
  | isActive other next last rest ih => exact ih
  | read path next last rest ih => exact ih

theorem skips_paired (env : Env Ch) (program last : Program Ch) (skips : Skips env program last) (paired : Paired env last) :
    Paired env program := by
  induction skips with
  | here program => exact paired
  | get element next last rest ih => exact ih paired
  | isActive other next last rest ih => exact ih paired
  | read path next last rest ih => exact ih paired

def due (env : Env Ch) (ch : Ch) (tasks : List (Task Ch)) : List Bytes :=
  tasks.flatMap fun task => (bodyDue env ch task.program).toList

def remaining (env : Env Ch) (ch : Ch) (tasks : List (Task Ch)) : List (List (Frame UInt8)) :=
  tasks.map fun task => framesOn env ch task.program

def AllPaired (env : Env Ch) (tasks : List (Task Ch)) : Prop := ∀ task ∈ tasks, Paired env task.program

theorem bytes_on_append (ch : Ch) (log more : List (Observation Ch)) :
    bytesOn ch (log ++ more) = bytesOn ch log ++ bytesOn ch more := List.flatMap_append

theorem announced_body (env : Env Ch) (ch : Ch) (listener next : Program Ch) (body : Bytes)
    (announced : bodiesAfter env listener next ch = [body]) :
    ((bodyDue env ch listener).or (bodyDue env ch next)).getD [] = body := by
  unfold bodiesAfter at announced
  cases first : bodyDue env ch listener with
  | some found =>
      rw [first] at announced
      simpa using (List.cons.inj announced).1
  | none =>
      rw [first] at announced
      cases second : bodyDue env ch next with
      | some found =>
          rw [second] at announced
          simpa using announced
      | none =>
          rw [second] at announced
          simp at announced

def SameFrames (before after : List (List (Frame UInt8))) : Prop :=
  ∃ added, after = before ++ added ∧ ∀ frames ∈ added, frames = []

def StartsFrame (frame : Frame UInt8) (before after : List (List (Frame UInt8))) : Prop :=
  ∃ left frames right, before = left ++ (frame :: frames) :: right ∧ SameFrames (left ++ frames :: right) after

def startsHeader (ch : Ch) : Program Ch → Bool
  | .writeAndFlush other part _ _ _ => part = .header ∧ other = ch
  | _ => false

-- What one call of one task does on a channel: nothing, the head of the task's
-- next frame, or a body that was due.
inductive Moves (env : Env Ch) (ch : Ch) (pool next : Pool Ch) (i : Nat) : Prop where
  | silent (bytes : bytesOn ch next.log = bytesOn ch pool.log)
      (bodies : (due env ch next.tasks).Perm (due env ch pool.tasks))
      (frames : SameFrames (remaining env ch pool.tasks) (remaining env ch next.tasks))
  | head (frame : Frame UInt8) (starts : ∃ task, pool.tasks[i]? = some task ∧ startsHeader ch task.program = true)
      (bytes : bytesOn ch next.log = bytesOn ch pool.log ++ frame.head)
      (bodies : (due env ch next.tasks).Perm (frame.body :: due env ch pool.tasks))
      (frames : StartsFrame frame (remaining env ch pool.tasks) (remaining env ch next.tasks))
  | body (buf : Bytes) (bytes : bytesOn ch next.log = bytesOn ch pool.log ++ buf)
      (bodies : (due env ch pool.tasks).Perm (buf :: due env ch next.tasks))
      (frames : SameFrames (remaining env ch pool.tasks) (remaining env ch next.tasks))

def bodiesLeft (env : Env Ch) (ch : Ch) (program : Program Ch) : List Bytes :=
  program.listeners.flatMap (fun listener => (bodyDue env ch listener).toList) ++ (bodyDue env ch (program.next env)).toList

theorem paired_next (env : Env Ch) (program : Program Ch) (paired : Paired env program) :
    Paired env (program.next env) ∧ ∀ listener ∈ program.listeners, Paired env listener := by
  cases program with
  | done => exact ⟨trivial, by simp [Program.listeners]⟩
  | raise exception => exact ⟨trivial, by simp [Program.listeners]⟩
  | get element next => exact ⟨paired, by simp [Program.listeners]⟩
  | isActive other next => exact ⟨paired, by simp [Program.listeners]⟩
  | read path next => exact ⟨paired, by simp [Program.listeners]⟩
  | publishEvent data next => exact ⟨paired, by simp [Program.listeners]⟩
  | writeAndFlush other part buf listener next =>
      refine ⟨paired.2.1, ?_⟩
      simp only [Program.listeners, List.mem_singleton, forall_eq]
      exact paired.1

theorem listeners_start_nothing (env : Env Ch) (ch : Ch) (program : Program Ch) (paired : Paired env program) :
    ∀ listener ∈ program.listeners, framesOn env ch listener = [] := by
  cases program with
  | writeAndFlush other part buf listener next =>
      simp only [Program.listeners, List.mem_singleton, forall_eq]
      exact paired.2.2.1 ch
  | _ => simp [Program.listeners]

inductive ProgramMoves (env : Env Ch) (ch : Ch) (request : Nat) (program : Program Ch) : Prop where
  | silent (bytes : bytesOn ch (program.observed env request) = [])
      (bodies : bodiesLeft env ch program = (bodyDue env ch program).toList)
      (frames : framesOn env ch program = framesOn env ch (program.next env))
  | head (frame : Frame UInt8) (starts : startsHeader ch program = true)
      (bytes : bytesOn ch (program.observed env request) = frame.head)
      (free : bodyDue env ch program = none) (bodies : bodiesLeft env ch program = [frame.body])
      (frames : framesOn env ch program = frame :: framesOn env ch (program.next env))
  | body (buf : Bytes) (bytes : bytesOn ch (program.observed env request) = buf)
      (announced : bodyDue env ch program = some buf) (bodies : bodiesLeft env ch program = [])
      (frames : framesOn env ch program = framesOn env ch (program.next env))

theorem program_moves (env : Env Ch) (ch : Ch) (request : Nat) (program : Program Ch) (paired : Paired env program) :
    ProgramMoves env ch request program := by
  cases program with
  | done => exact .silent rfl rfl rfl
  | raise exception => exact .silent rfl rfl rfl
  | get element next => exact .silent rfl rfl rfl
  | isActive other next => exact .silent rfl rfl rfl
  | read path next => exact .silent rfl rfl rfl
  | publishEvent data next => exact .silent rfl rfl rfl
  | writeAndFlush other part buf listener next =>
      have left : bodiesLeft env ch (.writeAndFlush other part buf listener next) = bodiesAfter env listener next ch := by
        simp [bodiesLeft, bodiesAfter, Program.listeners, Program.next]
      by_cases here : other = ch
      · have bytes : bytesOn ch ((Program.writeAndFlush other part buf listener next).observed env request) = buf := by
          simp [bytesOn, Program.observed, Observation.bytesOn, here]
        cases part with
        | header =>
            obtain ⟨body, announced⟩ := paired.2.2.2
            have single : bodiesAfter env listener next ch = [body] := by rw [announced, if_pos here.symm]
            refine .head ⟨buf, body⟩ (by simp [startsHeader, here]) bytes ?_ (left.trans single) ?_
            · simp [bodyDue]
            · simp [framesOn, here, announced_body env ch listener next body single, Program.next]
        | body =>
            refine .body buf bytes ?_ (left.trans (paired.2.2.2 ch)) ?_
            · simp [bodyDue, here]
            · simp [framesOn, Program.next]
      · have bytes : bytesOn ch ((Program.writeAndFlush other part buf listener next).observed env request) = [] := by
          simp [bytesOn, Program.observed, Observation.bytesOn, here]
        have nothing : bodiesAfter env listener next ch = [] := by
          cases part with
          | header =>
              obtain ⟨body, announced⟩ := paired.2.2.2
              rw [announced, if_neg (Ne.symm here)]
          | body => exact paired.2.2.2 ch
        refine .silent bytes ?_ ?_
        · rw [left, nothing]
          simp [bodyDue, here]
        · simp [framesOn, here, Program.next]

theorem due_parts (env : Env Ch) (ch : Ch) (left right added : List (Task Ch)) (task : Task Ch) :
    (due env ch (left ++ task :: right ++ added)).Perm
      (due env ch added ++ (bodyDue env ch task.program).toList ++ (due env ch left ++ due env ch right)) := by
  have spread : due env ch (left ++ task :: right ++ added) =
      due env ch left ++ (bodyDue env ch task.program).toList ++ due env ch right ++ due env ch added := by
    simp [due]
  rw [spread, List.append_assoc _ _ (due env ch left ++ _)]
  refine List.perm_append_comm.trans (List.Perm.append_left _ ?_)
  rw [← List.append_assoc]
  exact List.Perm.append_right _ List.perm_append_comm

-- The tasks of a pool when one of them has taken its next call.
def tasksAfter (env : Env Ch) (left : List (Task Ch)) (task : Task Ch) (right : List (Task Ch)) : List (Task Ch) :=
  left ++ ⟨task.request, task.program.next env⟩ :: right ++ task.program.listeners.map (Task.mk task.request)

theorem due_before (env : Env Ch) (ch : Ch) (left right : List (Task Ch)) (task : Task Ch) :
    (due env ch (left ++ task :: right)).Perm
      ((bodyDue env ch task.program).toList ++ (due env ch left ++ due env ch right)) := by
  have parts := due_parts env ch left right [] task
  rw [List.append_nil] at parts
  exact parts

theorem due_after (env : Env Ch) (ch : Ch) (left right : List (Task Ch)) (task : Task Ch) :
    (due env ch (tasksAfter env left task right)).Perm
      (bodiesLeft env ch task.program ++ (due env ch left ++ due env ch right)) := by
  refine (due_parts env ch left right _ ⟨task.request, task.program.next env⟩).trans (List.Perm.of_eq ?_)
  simp [due, bodiesLeft, List.flatMap_map]

theorem remaining_before (env : Env Ch) (ch : Ch) (left right : List (Task Ch)) (task : Task Ch) :
    remaining env ch (left ++ task :: right) =
      remaining env ch left ++ framesOn env ch task.program :: remaining env ch right := by
  simp [remaining]

theorem remaining_after (env : Env Ch) (ch : Ch) (left right : List (Task Ch)) (task : Task Ch)
    (paired : Paired env task.program) :
    SameFrames (remaining env ch left ++ framesOn env ch (task.program.next env) :: remaining env ch right)
      (remaining env ch (tasksAfter env left task right)) := by
  refine ⟨(task.program.listeners.map (Task.mk task.request)).map fun task => framesOn env ch task.program, ?_, ?_⟩
  · simp [remaining, tasksAfter]
  · intro frames member
    simp only [List.map_map, List.mem_map] at member
    obtain ⟨listener, listenerMember, rfl⟩ := member
    exact listeners_start_nothing env ch task.program paired listener listenerMember

theorem proceed_moves (env : Env Ch) (ch : Ch) (pool : Pool Ch) (i : Nat) (paired : AllPaired env pool.tasks) :
    Moves env ch pool (pool.proceed env i) i := by
  cases Pool.proceed_cases env pool i with
  | idle same =>
      rw [same]
      exact .silent rfl (List.Perm.refl _) ⟨[], by simp⟩
  | taken left task right found tasks after log =>
      have taskPaired := paired task (by simp [tasks])
      have bytes : bytesOn ch (pool.proceed env i).log = bytesOn ch pool.log ++ bytesOn ch (task.program.observed env task.request) := by
        rw [log, bytes_on_append]
      have before := due_before env ch left right task
      have later := due_after env ch left right task
      have started := remaining_before env ch left right task
      have rest := remaining_after env ch left right task taskPaired
      rw [← tasks] at before started
      rw [tasksAfter, ← after] at later rest
      cases program_moves env ch task.request task.program taskPaired with
      | silent observed bodies frames =>
          rw [← frames, ← started] at rest
          rw [bodies] at later
          exact .silent (by rw [bytes, observed, List.append_nil]) (later.trans before.symm) rest
      | head frame starts observed free bodies frames =>
          rw [free] at before
          rw [bodies] at later
          rw [frames] at started
          exact .head frame ⟨task, found, starts⟩ (by rw [bytes, observed]) (later.trans (before.symm.cons _)) ⟨_, _, _, started, rest⟩
      | body buf observed announced bodies frames =>
          rw [announced] at before
          rw [bodies] at later
          rw [← frames, ← started] at rest
          exact .body buf (by rw [bytes, observed]) (before.trans (later.symm.cons _)) rest

theorem all_paired_proceed (env : Env Ch) (pool : Pool Ch) (i : Nat) (paired : AllPaired env pool.tasks) :
    AllPaired env (pool.proceed env i).tasks :=
  Pool.each_task_proceed env pool i _ _ paired (fun _ known => known) fun task _ known => paired_next env task.program known

-- No header is queued on the channel while a body that an earlier header
-- announced is still to be queued there. Empty bodies tear nothing.
def KeepsFramesWhole (env : Env Ch) (ch : Ch) (pool : Pool Ch) (i : Nat) : Prop :=
  pool.tasks[i]?.any (fun task => startsHeader ch task.program) = true → NothingDue (due env ch pool.tasks)

instance (env : Env Ch) (ch : Ch) (pool : Pool Ch) (i : Nat) : Decidable (KeepsFramesWhole env ch pool i) :=
  inferInstanceAs (Decidable (_ = true → ∀ body ∈ due env ch pool.tasks, body = []))

structure FramesWhole (env : Env Ch) (ch : Ch) (pool : Pool Ch) (started : List (Frame UInt8)) : Prop where
  paired : AllPaired env pool.tasks
  coherent : Coherent (bytesOn ch pool.log) started (due env ch pool.tasks)

theorem frames_whole_proceed (env : Env Ch) (ch : Ch) (pool : Pool Ch) (i : Nat) (started : List (Frame UInt8))
    (whole : FramesWhole env ch pool started) (guarded : KeepsFramesWhole env ch pool i) :
    (FramesWhole env ch (pool.proceed env i) started ∧
      SameFrames (remaining env ch pool.tasks) (remaining env ch (pool.proceed env i).tasks)) ∨
    ∃ frame, FramesWhole env ch (pool.proceed env i) (started ++ [frame]) ∧
      StartsFrame frame (remaining env ch pool.tasks) (remaining env ch (pool.proceed env i).tasks) := by
  have paired := all_paired_proceed env pool i whole.paired
  cases proceed_moves env ch pool i whole.paired with
  | silent bytes bodies frames =>
      refine .inl ⟨⟨paired, ?_⟩, frames⟩
      rw [bytes]
      exact coherent_perm _ _ _ _ bodies.symm whole.coherent
  | head frame starts bytes bodies frames =>
      obtain ⟨task, found, header⟩ := starts
      refine .inr ⟨frame, ⟨paired, ?_⟩, frames⟩
      rw [bytes]
      exact coherent_perm _ _ _ _ bodies.symm (coherent_head _ _ _ frame whole.coherent (guarded (by simpa [found] using header)))
  | body buf bytes bodies frames =>
      refine .inl ⟨⟨paired, ?_⟩, frames⟩
      rw [bytes]
      exact coherent_body _ _ _ _ (coherent_perm _ _ _ _ bodies whole.coherent)

theorem start_remaining (env : Env Ch) (ch : Ch) (programs : List (Program Ch)) :
    remaining env ch (Pool.start programs).tasks = programs.map (framesOn env ch) := by
  nth_rewrite 2 [← Pool.start_programs programs]
  rw [List.map_map]
  rfl

theorem frames_whole_start (env : Env Ch) (ch : Ch) (programs : List (Program Ch))
    (paired : ∀ program ∈ programs, Paired env program) (free : ∀ program ∈ programs, bodyDue env ch program = none) :
    FramesWhole env ch (Pool.start programs) [] := by
  have inside : ∀ task ∈ (Pool.start programs).tasks, task.program ∈ programs := by
    intro task member
    rw [← Pool.start_programs programs]
    exact List.mem_map_of_mem member
  refine ⟨fun task member => paired _ (inside task member), ?_⟩
  have nothing : due env ch (Pool.start programs).tasks = [] := by
    rw [due, List.flatMap_eq_nil_iff]
    intro task member
    rw [free _ (inside task member)]
    rfl
  rw [nothing]
  exact coherent_nil

theorem finished_due (env : Env Ch) (ch : Ch) (pool : Pool Ch) (finished : pool.Finished) : due env ch pool.tasks = [] := by
  rw [due, List.flatMap_eq_nil_iff]
  intro task member
  rcases program_done _ (finished task member) with ended | ⟨exception, ended⟩
  · rw [ended]
    rfl
  · rw [ended]
    rfl

theorem finished_remaining (env : Env Ch) (ch : Ch) (pool : Pool Ch) (finished : pool.Finished) :
    ∀ frames ∈ remaining env ch pool.tasks, frames = [] := by
  intro frames member
  obtain ⟨task, taskMember, rfl⟩ := List.mem_map.mp member
  rcases program_done _ (finished task taskMember) with ended | ⟨exception, ended⟩
  · rw [ended]
    rfl
  · rw [ended]
    rfl

theorem same_frames_flatten (before after : List (List (Frame UInt8))) (same : SameFrames before after) :
    after.flatten = before.flatten := by
  obtain ⟨added, rfl, nothing⟩ := same
  rw [List.flatten_append, List.flatten_eq_nil_iff.mpr nothing, List.append_nil]

theorem starts_frame_flatten (frame : Frame UInt8) (before after : List (List (Frame UInt8)))
    (starts : StartsFrame frame before after) : (frame :: after.flatten).Perm before.flatten := by
  obtain ⟨left, frames, right, rfl, same⟩ := starts
  rw [same_frames_flatten _ _ same]
  simp only [List.flatten_append, List.flatten_cons, List.cons_append]
  exact List.perm_middle.symm

-- Every request, in any interleaving: the bytes are whole frames but for the
-- bodies still due, and in the end each frame is there once.
theorem frames_in_some_order (env : Env Ch) (ch : Ch) (pool : Pool Ch) (schedule : List Nat)
    (whole : FramesWhole env ch pool []) (guarded : Along (Pool.proceed env) (KeepsFramesWhole env ch) pool schedule) :
    ∃ order, order.Subperm (remaining env ch pool.tasks).flatten ∧
      bytesOn ch (run (Pool.proceed env) pool schedule).log ++
        (due env ch (run (Pool.proceed env) pool schedule).tasks).flatten = concat order ∧
      ((run (Pool.proceed env) pool schedule).Finished → order.Perm (remaining env ch pool.tasks).flatten ∧
        bytesOn ch (run (Pool.proceed env) pool schedule).log = concat order) := by
  let total := (remaining env ch pool.tasks).flatten
  have inv := invariant_along (Pool.proceed env) (KeepsFramesWhole env ch)
    (fun pool => ∃ started, FramesWhole env ch pool started ∧ (started ++ (remaining env ch pool.tasks).flatten).Perm total)
    ?_ pool schedule ⟨[], whole, List.Perm.refl _⟩ guarded
  · obtain ⟨started, ends, perm⟩ := inv
    refine ⟨started, (List.sublist_append_left _ _).subperm.trans perm.subperm, ends.coherent.short, fun finished => ?_⟩
    rw [List.flatten_eq_nil_iff.mpr (finished_remaining env ch _ finished), List.append_nil] at perm
    have coherent := ends.coherent
    rw [finished_due env ch _ finished] at coherent
    exact ⟨perm, coherent_finished _ _ coherent⟩
  · intro pool i inv allowed
    obtain ⟨started, whole, perm⟩ := inv
    rcases frames_whole_proceed env ch pool i started whole allowed with ⟨whole, same⟩ | ⟨frame, whole, starts⟩
    · exact ⟨started, whole, by rw [same_frames_flatten _ _ same]; exact perm⟩
    · refine ⟨started ++ [frame], whole, List.Perm.trans ?_ perm⟩
      rw [List.append_assoc]
      exact (starts_frame_flatten frame _ _ starts).append_left started

def InRequestOrder (env : Env Ch) (ch : Ch) (total : List (Frame UInt8)) (pool : Pool Ch) : Prop :=
  ∃ started frames, FramesWhole env ch pool started ∧ started ++ frames = total ∧
    SameFrames [frames] (remaining env ch pool.tasks)

theorem same_frames_trans (first second third : List (List (Frame UInt8))) (left : SameFrames first second)
    (right : SameFrames second third) : SameFrames first third := by
  obtain ⟨added, rfl, nothing⟩ := left
  obtain ⟨more, rfl, moreNothing⟩ := right
  refine ⟨added ++ more, List.append_assoc _ _ _, fun frames member => ?_⟩
  cases List.mem_append.mp member with
  | inl inside => exact nothing frames inside
  | inr inside => exact moreNothing frames inside

theorem in_request_order_proceed (env : Env Ch) (ch : Ch) (total : List (Frame UInt8)) (pool : Pool Ch) (i : Nat)
    (order : InRequestOrder env ch total pool) (guarded : KeepsFramesWhole env ch pool i) :
    InRequestOrder env ch total (pool.proceed env i) := by
  obtain ⟨started, frames, whole, all, added, left, nothing⟩ := order
  rcases frames_whole_proceed env ch pool i started whole guarded with ⟨whole, same⟩ | ⟨frame, whole, front, rest, right, before, same⟩
  · exact ⟨started, frames, whole, all, same_frames_trans _ _ _ ⟨added, left, nothing⟩ same⟩
  · rw [left] at before
    cases front with
    | nil =>
        obtain ⟨framesEq, addedEq⟩ := List.cons.inj before
        refine ⟨started ++ [frame], rest, whole, ?_, same_frames_trans _ _ _ ⟨added, ?_, nothing⟩ same⟩
        · rw [← all, framesEq, List.append_assoc]
          rfl
        · rw [← addedEq]
          rfl
    | cons first others =>
        have tail : added = others ++ (frame :: rest) :: right := (List.cons.inj before).2
        have empty := nothing (frame :: rest) (by rw [tail]; simp)
        cases empty

theorem frames_in_request_order (env : Env Ch) (ch : Ch) (pool : Pool Ch) (schedule : List Nat) (total : List (Frame UInt8))
    (whole : FramesWhole env ch pool []) (single : remaining env ch pool.tasks = [total])
    (guarded : Along (Pool.proceed env) (KeepsFramesWhole env ch) pool schedule) :
    ∃ sent, sent <+: total ∧
      bytesOn ch (run (Pool.proceed env) pool schedule).log ++
        (due env ch (run (Pool.proceed env) pool schedule).tasks).flatten = concat sent ∧
      ((run (Pool.proceed env) pool schedule).Finished →
        bytesOn ch (run (Pool.proceed env) pool schedule).log = concat total) := by
  obtain ⟨started, frames, ends, order, added, left, _⟩ := invariant_along (Pool.proceed env) (KeepsFramesWhole env ch)
    (InRequestOrder env ch total) (in_request_order_proceed env ch total) pool schedule
    ⟨[], total, whole, rfl, [], by rw [single]; rfl, by simp⟩ guarded
  refine ⟨started, ⟨frames, order⟩, ends.coherent.short, fun finished => ?_⟩
  have none := finished_remaining env ch _ finished frames (by simp [left])
  rw [none, List.append_nil] at order
  have coherent := ends.coherent
  rw [finished_due env ch _ finished] at coherent
  rw [← order]
  exact coherent_finished _ _ coherent

end Nenes
