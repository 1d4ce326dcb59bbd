import Mathlib.Algebra.Group.Basic
import Nenes.Program

set_option autoImplicit false

namespace Nenes

variable {Ch M : Type} [AddCommMonoid M]

-- What the tasks of a request hold between them: the request's own one and those
-- of its listeners.
def Shared (holds : Program Ch → M → Prop) (n : Nat) : List (Task Ch) → M → Prop
  | [], m => m = 0
  | task :: rest, m =>
      if task.request = n then ∃ a b, m = a + b ∧ holds task.program a ∧ Shared holds n rest b else Shared holds n rest m

theorem shared_append (holds : Program Ch → M → Prop) (n : Nat) (left right : List (Task Ch)) (m : M) :
    Shared holds n (left ++ right) m ↔ ∃ a b, m = a + b ∧ Shared holds n left a ∧ Shared holds n right b := by
  induction left generalizing m with
  | nil =>
      constructor
      · intro shared
        exact ⟨0, m, (zero_add m).symm, rfl, shared⟩
      · rintro ⟨a, b, rfl, rfl, shared⟩
        rwa [zero_add]
  | cons task rest ih =>
      simp only [List.cons_append, Shared]
      split
      · constructor
        · rintro ⟨a, b, rfl, first, later⟩
          obtain ⟨c, d, rfl, before, after⟩ := (ih b).mp later
          exact ⟨a + c, d, (add_assoc a c d).symm, ⟨a, c, rfl, first, before⟩, after⟩
        · rintro ⟨_, d, rfl, ⟨a, c, rfl, first, before⟩, after⟩
          exact ⟨a, c + d, add_assoc a c d, first, (ih (c + d)).mpr ⟨c, d, rfl, before, after⟩⟩
      · exact ih m

theorem shared_one (holds : Program Ch → M → Prop) (n : Nat) (program : Program Ch) (m : M) :
    Shared holds n [⟨n, program⟩] m ↔ holds program m := by
  rw [Shared, if_pos rfl]
  constructor
  · rintro ⟨a, b, rfl, own, rfl⟩
    rwa [add_zero]
  · intro own
    exact ⟨m, 0, (add_zero m).symm, own, rfl⟩

theorem shared_others (holds : Program Ch → M → Prop) (n : Nat) (tasks : List (Task Ch))
    (others : ∀ task ∈ tasks, task.request ≠ n) : Shared holds n tasks (0 : M) := by
  induction tasks with
  | nil => rfl
  | cons task rest ih =>
      obtain ⟨first, later⟩ := List.forall_mem_cons.mp others
      rw [Shared, if_neg first]
      exact ih later

theorem shared_other (holds : Program Ch → M → Prop) (n : Nat) (task : Task Ch) (other : task.request ≠ n) (m : M) :
    Shared holds n [task] m ↔ m = 0 := by rw [Shared, if_neg other, Shared]

-- What a program holds it pays with a call, or passes on to what follows the call
-- and to its listener.
def PassesOn (env : Env Ch) (n : Nat) (holds pays : Program Ch → M → Prop) : Prop :=
  ∀ program m, holds program m → ∃ paid a b, m = paid + (a + b) ∧ pays program paid ∧ holds (program.next env) a ∧
    Shared holds n (program.listeners.map (Task.mk n)) b

def Paid (n : Nat) (pays : Program Ch → M → Prop) (called : Option (Task Ch)) (paid : M) : Prop :=
  (∃ program, called = some ⟨n, program⟩ ∧ pays program paid) ∨ ((∀ program, called ≠ some ⟨n, program⟩) ∧ paid = 0)

-- The task that takes its call can be looked at alone: what it leaves and what the
-- others hold make up the whole again.
theorem shared_called (env : Env Ch) (n i : Nat) (holds : Program Ch → M → Prop) (pool : Pool Ch) (program : Program Ch) (m : M)
    (called : pool.tasks[i]? = some ⟨n, program⟩) (shared : Shared holds n pool.tasks m) :
    ∃ own rest, m = own + rest ∧ holds program own ∧ ∀ next listeners, holds (program.next env) next →
      Shared holds n (program.listeners.map (Task.mk n)) listeners →
        Shared holds n (pool.proceed env i).tasks (next + listeners + rest) := by
  obtain ⟨left, right, tasks, set⟩ := Pool.split_at pool.tasks i ⟨n, program⟩ called
  have before : pool.tasks = left ++ ([⟨n, program⟩] ++ right) := by simp [tasks]
  have after : (pool.proceed env i).tasks =
      left ++ ([⟨n, program.next env⟩] ++ (right ++ program.listeners.map (Task.mk n))) := by
    rw [Pool.proceed, called]
    simp [set]
  rw [before, shared_append] at shared
  obtain ⟨early, rest, rfl, first, later⟩ := shared
  rw [shared_append] at later
  obtain ⟨own, late, rfl, here, last⟩ := later
  refine ⟨own, early + late, add_left_comm early own late, (shared_one _ _ _ _).mp here, fun next listeners goesOn listens => ?_⟩
  rw [after]
  refine (shared_append _ _ _ _ _).mpr ⟨early, next + (late + listeners), ?_, first, ?_⟩
  · simp only [add_left_comm, add_comm]
  refine (shared_append _ _ _ _ _).mpr ⟨next, _, rfl, (shared_one _ _ _ _).mpr goesOn, ?_⟩
  exact (shared_append _ _ _ _ _).mpr ⟨late, listeners, rfl, last, listens⟩

theorem shared_uncalled (env : Env Ch) (n i : Nat) (holds : Program Ch → M → Prop) (pool : Pool Ch) (m : M)
    (uncalled : ∀ program, pool.tasks[i]? ≠ some ⟨n, program⟩) (shared : Shared holds n pool.tasks m) :
    Shared holds n (pool.proceed env i).tasks m := by
  cases Pool.proceed_cases env pool i with
  | idle same => rwa [same]
  | taken left task right found before after _ =>
      have other : task.request ≠ n := by
        rintro rfl
        exact uncalled task.program found
      rw [before, ← List.singleton_append, shared_append] at shared
      obtain ⟨early, rest, rfl, first, later⟩ := shared
      rw [shared_append] at later
      obtain ⟨own, late, rfl, here, last⟩ := later
      obtain rfl := (shared_other holds n task other own).mp here
      rw [after, List.append_assoc, List.cons_append, ← List.singleton_append]
      refine (shared_append _ _ _ _ _).mpr ⟨early, 0 + late, rfl, first, ?_⟩
      refine (shared_append _ _ _ _ _).mpr ⟨0, late, rfl, (shared_other holds n _ (by exact other) 0).mpr rfl, ?_⟩
      refine (shared_append _ _ _ _ _).mpr ⟨late, 0, (add_zero late).symm, last, shared_others _ _ _ ?_⟩
      intro task member
      obtain ⟨listener, _, rfl⟩ := List.mem_map.mp member
      exact other

theorem shared_proceed (env : Env Ch) (n i : Nat) (holds pays : Program Ch → M → Prop) (passes : PassesOn env n holds pays)
    (pool : Pool Ch) (m : M) (shared : Shared holds n pool.tasks m) :
    ∃ paid rest, m = paid + rest ∧ Paid n pays pool.tasks[i]? paid ∧ Shared holds n (pool.proceed env i).tasks rest := by
  by_cases called : ∃ program, pool.tasks[i]? = some ⟨n, program⟩
  · obtain ⟨program, called⟩ := called
    obtain ⟨own, rest, rfl, holding, again⟩ := shared_called env n i holds pool program m called shared
    obtain ⟨paid, a, b, rfl, paying, next, listeners⟩ := passes program own holding
    exact ⟨paid, a + b + rest, add_assoc _ _ _, .inl ⟨program, called, paying⟩, again a b next listeners⟩
  · have uncalled := not_exists.mp called
    exact ⟨0, m, (zero_add m).symm, .inr ⟨uncalled, rfl⟩, shared_uncalled env n i holds pool m uncalled shared⟩

end Nenes
