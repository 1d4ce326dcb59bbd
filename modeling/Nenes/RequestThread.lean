import Nenes.PairedWrites

set_option autoImplicit false

namespace Nenes

open ByteBuf Runs

variable {Ch : Type}

-- What a request does in its own thread, from its first call to its last. Its
-- listeners run elsewhere.
def Program.queued (env : Env Ch) : Program Ch → List (Ch × Part × Bytes)
  | .done => []
  | .raise _ => []
  | .get element next => (next (env.get element)).queued env
  | .isActive ch next => (next (env.isActive ch)).queued env
  | .read path next => (next (env.read path)).queued env
  | .publishEvent _ next => next.queued env
  | .writeAndFlush ch part buf _ next => (ch, part, buf) :: next.queued env

def Program.raised (env : Env Ch) : Program Ch → Option Throwable
  | .done => none
  | .raise exception => some exception
  | .get element next => (next (env.get element)).raised env
  | .isActive ch next => (next (env.isActive ch)).raised env
  | .read path next => (next (env.read path)).raised env
  | .publishEvent _ next => next.raised env
  | .writeAndFlush _ _ _ _ next => next.raised env

def Program.ended (exception : Option Throwable) : Program Ch :=
  match exception with
  | none => .done
  | some exception => .raise exception

def Observation.write : Observation Ch → Option (Ch × Part × Bytes)
  | .queued _ ch part buf => some (ch, part, buf)
  | _ => none

def writes (log : List (Observation Ch)) : List (Ch × Part × Bytes) := log.filterMap Observation.write

theorem queued_next (env : Env Ch) (request : Nat) (program : Program Ch) :
    program.queued env = writes (program.observed env request) ++ (program.next env).queued env := by
  cases program with
  | done => rfl
  | raise exception => rfl
  | get element next => rfl
  | isActive ch next => rfl
  | read path next => rfl
  | publishEvent data next => rfl
  | writeAndFlush ch part buf listener next => rfl

theorem raised_next (env : Env Ch) (program : Program Ch) : (program.next env).raised env = program.raised env := by
  cases program with
  | done => rfl
  | raise exception => rfl
  | get element next => rfl
  | isActive ch next => rfl
  | read path next => rfl
  | publishEvent data next => rfl
  | writeAndFlush ch part buf listener next => rfl

theorem proceed_thread (env : Env Ch) (pool : Pool Ch) (i request : Nat) (program : Program Ch)
    (found : pool.tasks[i]? = some ⟨request, program⟩) :
    (pool.proceed env i).tasks[i]? = some ⟨request, program.next env⟩ ∧
      (pool.proceed env i).log = pool.log ++ program.observed env request := by
  obtain ⟨inside, _⟩ := List.getElem?_eq_some_iff.mp found
  rw [Pool.proceed, found]
  refine ⟨?_, rfl⟩
  rw [List.getElem?_append_left (by simpa using inside), List.getElem?_set_self inside]

-- A program is a finite tree: scheduled alone, its thread comes to an end in
-- that many steps, whatever else is in the pool.
theorem thread_runs (env : Env Ch) (program : Program Ch) : ∃ steps, ∀ (pool : Pool Ch) (i request : Nat),
    pool.tasks[i]? = some ⟨request, program⟩ →
      (run (Pool.proceed env) pool (List.replicate steps i)).tasks[i]? = some ⟨request, .ended (program.raised env)⟩ ∧
      writes (run (Pool.proceed env) pool (List.replicate steps i)).log = writes pool.log ++ program.queued env := by
  have later : ∀ program : Program Ch, (∃ steps, ∀ (pool : Pool Ch) (i request : Nat),
      pool.tasks[i]? = some ⟨request, program.next env⟩ →
        (run (Pool.proceed env) pool (List.replicate steps i)).tasks[i]? =
          some ⟨request, .ended ((program.next env).raised env)⟩ ∧
        writes (run (Pool.proceed env) pool (List.replicate steps i)).log =
          writes pool.log ++ (program.next env).queued env) →
      ∃ steps, ∀ (pool : Pool Ch) (i request : Nat), pool.tasks[i]? = some ⟨request, program⟩ →
        (run (Pool.proceed env) pool (List.replicate steps i)).tasks[i]? =
          some ⟨request, .ended (program.raised env)⟩ ∧
        writes (run (Pool.proceed env) pool (List.replicate steps i)).log = writes pool.log ++ program.queued env := by
    intro program rest
    obtain ⟨steps, ends⟩ := rest
    refine ⟨steps + 1, fun pool i request found => ?_⟩
    obtain ⟨task, log⟩ := proceed_thread env pool i request program found
    obtain ⟨ended, written⟩ := ends _ i request task
    rw [List.replicate_succ, run_cons]
    refine ⟨by rw [ended, raised_next], ?_⟩
    rw [written, log, writes, List.filterMap_append, List.append_assoc, queued_next env request program]
    rfl
  induction program with
  | done => exact ⟨0, fun pool i request found => ⟨found, by simp [Program.queued]⟩⟩
  | raise exception => exact ⟨0, fun pool i request found => ⟨found, by simp [Program.queued]⟩⟩
  | get element next ih => exact later _ (ih (env.get element))
  | isActive ch next ih => exact later _ (ih (env.isActive ch))
  | read path next ih => exact later _ (ih (env.read path))
  | publishEvent data next ih => exact later _ ih
  | writeAndFlush ch part buf listener next _ ih => exact later _ ih

theorem skips_queued (env : Env Ch) (program last : Program Ch) (skips : Skips env program last) :
    program.queued env = last.queued env := by
  induction skips with
  | here program => rfl
  | get element next last rest ih => exact ih
  | isActive other next last rest ih => exact ih
  | read path next last rest ih => exact ih

theorem skips_raised (env : Env Ch) (program last : Program Ch) (skips : Skips env program last) :
    program.raised env = last.raised env := by
  induction skips with
  | here program => rfl
  | get element next last rest ih => exact ih
  | isActive other next last rest ih => exact ih
  | read path next last rest ih => exact ih

end Nenes
