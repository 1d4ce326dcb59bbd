import Nenes.MessageEvent

set_option autoImplicit false

namespace Nenes

open ByteBuf

-- What a writeAndFlush call of the commands sends: a header made by
-- initializeProtocol, or the data it announces.
inductive Part where
  | header
  | body
deriving DecidableEq, Repr

inductive Throwable where
  | illegalThreadState
  | nullPointer
  | fileNotFound
  | jsonSyntax
deriving DecidableEq, Repr

-- The calls of a command whose answer or order depends on other threads. A
-- listener runs on its own, at any time after the write it was added to.
inductive Program (Ch : Type) where
  | done
  | raise (exception : Throwable)
  | get (element : JString) (next : Option Ch → Program Ch)
  | isActive (ch : Ch) (next : Bool → Program Ch)
  | read (path : JString) (next : Option Bytes → Program Ch)
  | publishEvent (data : MessageEventData) (next : Program Ch)
  | writeAndFlush (ch : Ch) (part : Part) (buf : Bytes) (listener next : Program Ch)

structure Env (Ch : Type) where
  get : JString → Option Ch
  isActive : Ch → Bool
  read : JString → Option Bytes

def target {Ch : Type} (env : Env Ch) (element : JString) : Option Ch := (env.get element).filter env.isActive

structure Task (Ch : Type) where
  request : Nat
  program : Program Ch

inductive Observation (Ch : Type) where
  | received (ch : Ch) (bytes : Bytes)
  | checked (request : Nat) (ch : Ch) (answer : Bool)
  | queued (request : Nat) (ch : Ch) (part : Part) (buf : Bytes)
  | published (data : MessageEventData)
deriving DecidableEq

structure Pool (Ch : Type) where
  tasks : List (Task Ch)
  log : List (Observation Ch)

def Program.next {Ch : Type} (env : Env Ch) : Program Ch → Program Ch
  | .done => .done
  | .raise exception => .raise exception
  | .get element next => next (env.get element)
  | .isActive ch next => next (env.isActive ch)
  | .read path next => next (env.read path)
  | .publishEvent _ next => next
  | .writeAndFlush _ _ _ _ next => next

def Program.listeners {Ch : Type} : Program Ch → List (Program Ch)
  | .writeAndFlush _ _ _ listener _ => [listener]
  | _ => []

def Program.observed {Ch : Type} (env : Env Ch) (request : Nat) : Program Ch → List (Observation Ch)
  | .isActive ch _ => [.checked request ch (env.isActive ch)]
  | .publishEvent data _ => [.published data]
  | .writeAndFlush ch part buf _ _ => [.queued request ch part buf]
  | _ => []

def Program.isDone {Ch : Type} : Program Ch → Bool
  | .done => true
  | .raise _ => true
  | _ => false

theorem program_done {Ch : Type} (program : Program Ch) (done : program.isDone = true) :
    program = .done ∨ ∃ exception, program = .raise exception := by
  cases program with
  | done => exact .inl rfl
  | raise exception => exact .inr ⟨exception, rfl⟩
  | _ => cases done

namespace Pool

variable {Ch : Type}

def proceed (env : Env Ch) (pool : Pool Ch) (i : Nat) : Pool Ch :=
  match pool.tasks[i]? with
  | none => pool
  | some task =>
      { tasks := pool.tasks.set i ⟨task.request, task.program.next env⟩ ++ task.program.listeners.map (Task.mk task.request)
        log := pool.log ++ task.program.observed env task.request }

theorem split_at {α : Type} (items : List α) (i : Nat) (item : α) (found : items[i]? = some item) :
    ∃ left right, items = left ++ item :: right ∧ ∀ other, items.set i other = left ++ other :: right := by
  obtain ⟨inside, rfl⟩ := List.getElem?_eq_some_iff.mp found
  refine ⟨items.take i, items.drop (i + 1), ?_, fun other => ?_⟩
  · rw [List.getElem_cons_drop, List.take_append_drop]
  · rw [List.set_eq_take_append_cons_drop, if_pos inside]

-- The task that is found takes its next call, and its listener becomes a task.
inductive Proceeds (env : Env Ch) (pool : Pool Ch) (i : Nat) : Prop where
  | idle (same : proceed env pool i = pool)
  | taken (left : List (Task Ch)) (task : Task Ch) (right : List (Task Ch)) (found : pool.tasks[i]? = some task)
      (before : pool.tasks = left ++ task :: right)
      (after : (proceed env pool i).tasks =
        left ++ ⟨task.request, task.program.next env⟩ :: right ++ task.program.listeners.map (Task.mk task.request))
      (log : (proceed env pool i).log = pool.log ++ task.program.observed env task.request)

theorem proceed_cases (env : Env Ch) (pool : Pool Ch) (i : Nat) : Proceeds env pool i := by
  cases found : pool.tasks[i]? with
  | none => exact .idle (by rw [proceed, found])
  | some task =>
      obtain ⟨left, right, tasks, set⟩ := split_at pool.tasks i task found
      refine .taken left task right found tasks ?_ ?_
      · rw [proceed, found]
        simp only [set]
      · rw [proceed, found]

theorem each_task_proceed (env : Env Ch) (pool : Pool Ch) (i : Nat) (old new : Task Ch → Prop)
    (all : ∀ task ∈ pool.tasks, old task) (kept : ∀ task, old task → new task)
    (taken : ∀ task, pool.tasks[i]? = some task → old task →
      new ⟨task.request, task.program.next env⟩ ∧ ∀ listener ∈ task.program.listeners, new ⟨task.request, listener⟩) :
    ∀ task ∈ (proceed env pool i).tasks, new task := by
  cases proceed_cases env pool i with
  | idle same =>
      rw [same]
      exact fun task member => kept task (all task member)
  | taken left task right found before after _ =>
      obtain ⟨next, listeners⟩ := taken task found (all task (by simp [before]))
      intro other member
      simp only [after, List.mem_append, List.mem_cons, List.mem_map] at member
      rcases member with (member | rfl | member) | ⟨listener, member, rfl⟩
      · exact kept other (all other (by simp [before, member]))
      · exact next
      · exact kept other (all other (by simp [before, member]))
      · exact listeners listener member

def Finished (pool : Pool Ch) : Prop := ∀ task ∈ pool.tasks, task.program.isDone = true

instance (pool : Pool Ch) : Decidable pool.Finished :=
  inferInstanceAs (Decidable (∀ task ∈ pool.tasks, task.program.isDone = true))

def start (programs : List (Program Ch)) : Pool Ch := ⟨programs.zipIdx.map fun numbered => ⟨numbered.2, numbered.1⟩, []⟩

theorem start_programs (programs : List (Program Ch)) : (start programs).tasks.map Task.program = programs := by
  rw [start, List.map_map]
  exact List.zipIdx_map_fst 0 programs

end Pool

variable {Ch : Type} [DecidableEq Ch]

def Observation.bytesOn (ch : Ch) : Observation Ch → Bytes
  | .queued _ other _ buf => if other = ch then buf else []
  | _ => []

def bytesOn (ch : Ch) (log : List (Observation Ch)) : Bytes := log.flatMap (Observation.bytesOn ch)

end Nenes
