import Nenes.Base.EventLog
import Nenes.Program

set_option autoImplicit false

namespace Nenes

open ByteBuf EventLog

variable {Ch : Type}

structure Rights (Ch : Type) where
  allowed : Ch → Prop
  found : Ch → Prop
  carries : Part → Bytes → Prop

namespace Rights

structure Le (rights more : Rights Ch) : Prop where
  allowed : ∀ c, rights.allowed c → more.allowed c
  found : ∀ c, rights.found c → more.found c
  carries : ∀ part buf, rights.carries part buf → more.carries part buf

def reaching (rights : Rights Ch) (c : Ch) : Rights Ch := { rights with allowed := fun d => rights.allowed d ∨ d = c }

def finding (rights : Rights Ch) (c : Ch) : Rights Ch := { rights with found := fun d => rights.found d ∨ d = c }

def reading (rights : Rights Ch) (content : Bytes) : Rights Ch :=
  { rights with carries := fun part buf => rights.carries part buf ∨ (part = .body ∧ buf = content) }

theorem le_reaching (rights more : Rights Ch) (c : Ch) (le : rights.Le more) : (rights.reaching c).Le (more.reaching c) :=
  ⟨fun d known => known.imp_left (le.allowed d), le.found, le.carries⟩

theorem le_finding (rights more : Rights Ch) (c : Ch) (le : rights.Le more) : (rights.finding c).Le (more.finding c) :=
  ⟨le.allowed, fun d known => known.imp_left (le.found d), le.carries⟩

theorem le_reading (rights more : Rights Ch) (content : Bytes) (le : rights.Le more) :
    (rights.reading content).Le (more.reading content) :=
  ⟨le.allowed, le.found, fun part buf known => known.imp_left (le.carries part buf)⟩

theorem le_refl (rights : Rights Ch) : rights.Le rights := ⟨fun _ known => known, fun _ known => known, fun _ _ known => known⟩

theorem le_trans (rights more most : Rights Ch) (le : rights.Le more) (further : more.Le most) : rights.Le most :=
  ⟨fun c known => further.allowed c (le.allowed c known), fun c known => further.found c (le.found c known),
    fun part buf known => further.carries part buf (le.carries part buf known)⟩

theorem reaching_more (rights : Rights Ch) (c : Ch) : rights.Le (rights.reaching c) :=
  ⟨fun _ known => .inl known, fun _ known => known, fun _ _ known => known⟩

theorem finding_more (rights : Rights Ch) (c : Ch) : rights.Le (rights.finding c) :=
  ⟨fun _ known => known, fun _ known => .inl known, fun _ _ known => known⟩

theorem reading_more (rights : Rights Ch) (content : Bytes) : rights.Le (rights.reading content) :=
  ⟨fun _ known => known, fun _ known => known, fun _ _ known => .inl known⟩

theorem reaching_le (rights more : Rights Ch) (c : Ch) (le : rights.Le more) (now : more.allowed c) :
    (rights.reaching c).Le more :=
  ⟨fun d known => known.elim (le.allowed d) fun same => same ▸ now, le.found, le.carries⟩

theorem finding_le (rights more : Rights Ch) (c : Ch) (le : rights.Le more) (now : more.found c) :
    (rights.finding c).Le more :=
  ⟨le.allowed, fun d known => known.elim (le.found d) fun same => same ▸ now, le.carries⟩

theorem reading_le (rights more : Rights Ch) (content : Bytes) (le : rights.Le more) (now : more.carries .body content) :
    (rights.reading content).Le more :=
  ⟨le.allowed, le.found, fun part buf known => known.elim (le.carries part buf) fun same => same.1 ▸ same.2 ▸ now⟩

end Rights

-- The program looks up listed names, opens named files, and writes what its
-- rights allow. What it learns adds to them.
def Within (names paths : List JString) (rights : Rights Ch) : Program Ch → Prop
  | .done => True
  | .raise _ => True
  | .get element next =>
      element ∈ names ∧ Within names paths rights (next none) ∧ ∀ c, Within names paths (rights.reaching c) (next (some c))
  | .isActive c next => Within names paths (rights.finding c) (next true) ∧ Within names paths rights (next false)
  | .read path next =>
      path ∈ paths ∧ Within names paths rights (next none) ∧
        ∀ content, Within names paths (rights.reading content) (next (some content))
  | .publishEvent _ next => Within names paths rights next
  | .writeAndFlush c part buf listener next =>
      (rights.allowed c ∧ rights.found c ∧ rights.carries part buf) ∧ Within names paths rights listener ∧
        Within names paths rights next

theorem within_mono (names paths : List JString) (program : Program Ch) (rights more : Rights Ch) (le : rights.Le more)
    (within : Within names paths rights program) : Within names paths more program := by
  induction program generalizing rights more with
  | done => trivial
  | raise exception => trivial
  | get element next ih =>
      obtain ⟨listed, absent, present⟩ := within
      exact ⟨listed, ih none rights more le absent,
        fun c => ih (some c) _ _ (Rights.le_reaching rights more c le) (present c)⟩
  | isActive c next ih =>
      exact ⟨ih true _ _ (Rights.le_finding rights more c le) within.1, ih false rights more le within.2⟩
  | read path next ih =>
      obtain ⟨named, absent, present⟩ := within
      exact ⟨named, ih none rights more le absent,
        fun content => ih (some content) _ _ (Rights.le_reading rights more content le) (present content)⟩
  | publishEvent data next ih => exact ih rights more le within
  | writeAndFlush c part buf listener next ihListener ihNext =>
      obtain ⟨⟨allowed, found, carries⟩, listenerWithin, nextWithin⟩ := within
      exact ⟨⟨le.allowed c allowed, le.found c found, le.carries part buf carries⟩, ihListener rights more le listenerWithin,
        ihNext rights more le nextWithin⟩

-- One call of a program, where the answers it gets are among its new rights.
theorem within_next (names paths : List JString) (env : Env Ch) (program : Program Ch) (rights more : Rights Ch)
    (le : rights.Le more) (gets : ∀ element ∈ names, ∀ c, env.get element = some c → more.allowed c)
    (checks : ∀ c next, program = .isActive c next → env.isActive c = true → more.found c)
    (reads : ∀ path ∈ paths, ∀ content, env.read path = some content → more.carries .body content)
    (within : Within names paths rights program) : Within names paths more (program.next env) := by
  cases program with
  | done => trivial
  | raise exception => trivial
  | publishEvent data next => exact within_mono names paths _ _ _ le within
  | writeAndFlush c part buf listener next => exact within_mono names paths _ _ _ le within.2.2
  | get element next =>
      obtain ⟨listed, absent, present⟩ := within
      rw [Program.next]
      cases found : env.get element with
      | none => exact within_mono names paths _ _ _ le absent
      | some c =>
          exact within_mono names paths _ _ _ (Rights.reaching_le _ _ c le (gets element listed c found)) (present c)
  | isActive c next =>
      rw [Program.next]
      cases answer : env.isActive c with
      | false => exact within_mono names paths _ _ _ le within.2
      | true => exact within_mono names paths _ _ _ (Rights.finding_le _ _ c le (checks c next rfl answer)) within.1
  | read path next =>
      obtain ⟨named, absent, present⟩ := within
      rw [Program.next]
      cases file : env.read path with
      | none => exact within_mono names paths _ _ _ le absent
      | some content =>
          exact within_mono names paths _ _ _ (Rights.reading_le _ _ content le (reads path named content file))
            (present content)

theorem listeners_within (names paths : List JString) (rights : Rights Ch) (program : Program Ch)
    (within : Within names paths rights program) : ∀ listener ∈ program.listeners, Within names paths rights listener := by
  cases program with
  | writeAndFlush c part buf listener next =>
      simp only [Program.listeners, List.mem_singleton, forall_eq]
      exact within.2.1
  | _ => simp [Program.listeners]

-- The requests of a pool by their numbers, what they name, and the rights that a
-- log of observations has earned them.
structure Ledger (Ch R : Type) where
  request : Nat → Option R
  names : R → List JString
  paths : R → List JString
  rights : List (Observation Ch) → Nat → R → Rights Ch

namespace Ledger

variable {R : Type}

def Accounted (ledger : Ledger Ch R) (before : List (Observation Ch)) : Observation Ch → Prop
  | .queued n c part buf => ∃ r, ledger.request n = some r ∧ (ledger.rights before n r).allowed c ∧
      (ledger.rights before n r).found c ∧ (ledger.rights before n r).carries part buf
  | _ => True

def Keeps (ledger : Ledger Ch R) (log : List (Observation Ch)) (task : Task Ch) : Prop :=
  ∃ r, ledger.request task.request = some r ∧
    Within (ledger.names r) (ledger.paths r) (ledger.rights log task.request r) task.program

-- All that has been written was the request's right, and so is all that may be.
structure Balanced (ledger : Ledger Ch R) (pool : Pool Ch) : Prop where
  supported : EachSupported ledger.Accounted pool.log
  within : ∀ task ∈ pool.tasks, ledger.Keeps pool.log task

def Grows (ledger : Ledger Ch R) : Prop := ∀ log more n r, (ledger.rights log n r).Le (ledger.rights (log ++ more) n r)

structure Le (ledger more : Ledger Ch R) : Prop where
  request : ∀ n r, ledger.request n = some r → more.request n = some r
  names : more.names = ledger.names
  paths : more.paths = ledger.paths
  rights : ∀ log n r, (ledger.rights log n r).Le (more.rights log n r)

theorem keeps_more (ledger : Ledger Ch R) (grows : ledger.Grows) (log more : List (Observation Ch)) (task : Task Ch)
    (keeps : ledger.Keeps log task) : ledger.Keeps (log ++ more) task := by
  obtain ⟨r, numbered, within⟩ := keeps
  exact ⟨r, numbered, within_mono _ _ task.program _ _ (grows log more task.request r) within⟩

theorem balanced_more (ledger more : Ledger Ch R) (le : ledger.Le more) (pool : Pool Ch) (balanced : ledger.Balanced pool) :
    more.Balanced pool where
  supported := by
    intro before observation after same
    have accounted := balanced.supported before observation after same
    cases observation with
    | queued n c part buf =>
        obtain ⟨r, numbered, allowed, found, carries⟩ := accounted
        have rights := le.rights before n r
        exact ⟨r, le.request n r numbered, rights.allowed c allowed, rights.found c found, rights.carries part buf carries⟩
    | _ => trivial
  within := by
    intro task member
    obtain ⟨r, numbered, within⟩ := balanced.within task member
    refine ⟨r, le.request task.request r numbered, ?_⟩
    rw [le.names, le.paths]
    exact within_mono _ _ task.program _ _ (le.rights pool.log task.request r) within

theorem balanced_observed (ledger : Ledger Ch R) (grows : ledger.Grows) (pool : Pool Ch) (observation : Observation Ch)
    (accounted : ledger.Accounted pool.log observation) (balanced : ledger.Balanced pool) :
    ledger.Balanced { pool with log := pool.log ++ [observation] } :=
  ⟨each_supported_snoc _ _ _ balanced.supported accounted,
    fun task member => ledger.keeps_more grows pool.log [observation] task (balanced.within task member)⟩

theorem balanced_accepted (ledger : Ledger Ch R) (pool : Pool Ch) (task : Task Ch) (keeps : ledger.Keeps pool.log task)
    (balanced : ledger.Balanced pool) : ledger.Balanced { pool with tasks := pool.tasks ++ [task] } :=
  ⟨balanced.supported, forall_snoc _ pool.tasks task balanced.within keeps⟩

theorem accounted_observed (ledger : Ledger Ch R) (env : Env Ch) (log : List (Observation Ch)) (task : Task Ch)
    (keeps : ledger.Keeps log task) (supported : EachSupported ledger.Accounted log) :
    EachSupported ledger.Accounted (log ++ task.program.observed env task.request) := by
  obtain ⟨r, numbered, within⟩ := keeps
  cases program : task.program with
  | isActive c next => exact each_supported_snoc _ _ _ supported trivial
  | publishEvent data next => exact each_supported_snoc _ _ _ supported trivial
  | writeAndFlush c part buf listener next =>
      rw [program] at within
      exact each_supported_snoc _ _ _ supported ⟨r, numbered, within.1⟩
  | _ =>
      simp only [Program.observed, List.append_nil]
      exact supported

-- A ledger in which what a call finds and reads, and what the log says, are
-- rights of the request.
structure Earns (ledger : Ledger Ch R) (env : Env Ch) (log : List (Observation Ch)) : Prop where
  grows : ledger.Grows
  gets : ∀ more n r, ∀ element ∈ ledger.names r, ∀ c, env.get element = some c → (ledger.rights (log ++ more) n r).allowed c
  checks : ∀ more n r c, .checked n c true ∈ more → (ledger.rights (log ++ more) n r).found c
  reads : ∀ more n r, ∀ path ∈ ledger.paths r, ∀ content, env.read path = some content →
    (ledger.rights (log ++ more) n r).carries .body content

theorem next_keeps (ledger : Ledger Ch R) (env : Env Ch) (log : List (Observation Ch)) (earns : ledger.Earns env log)
    (task : Task Ch) (keeps : ledger.Keeps log task) :
    ledger.Keeps (log ++ task.program.observed env task.request) ⟨task.request, task.program.next env⟩ ∧
      ∀ listener ∈ task.program.listeners,
        ledger.Keeps (log ++ task.program.observed env task.request) ⟨task.request, listener⟩ := by
  obtain ⟨r, numbered, within⟩ := keeps
  have more := earns.grows log (task.program.observed env task.request) task.request r
  refine ⟨⟨r, numbered, ?_⟩, fun listener member => ⟨r, numbered, ?_⟩⟩
  · apply within_next _ _ env task.program _ _ more _ _ _ within
    · exact earns.gets _ task.request r
    · intro c next same answer
      exact earns.checks _ task.request r c (by simp [Program.observed, same, answer])
    · exact earns.reads _ task.request r
  · exact within_mono _ _ listener _ _ more (listeners_within _ _ _ task.program within listener member)

theorem balanced_proceed (ledger : Ledger Ch R) (env : Env Ch) (pool : Pool Ch) (i : Nat) (earns : ledger.Earns env pool.log)
    (balanced : ledger.Balanced pool) : ledger.Balanced (pool.proceed env i) := by
  cases Pool.proceed_cases env pool i with
  | idle same =>
      rw [same]
      exact balanced
  | taken left task right found before _ log =>
      have keeps := balanced.within task (by simp [before])
      refine ⟨?_, Pool.each_task_proceed env pool i _ _ balanced.within ?_ ?_⟩
      all_goals rw [log]
      · exact ledger.accounted_observed env pool.log task keeps balanced.supported
      · exact fun other known => ledger.keeps_more earns.grows pool.log _ other known
      · intro other same known
        obtain rfl : task = other := Option.some.inj (found.symm.trans same)
        exact ledger.next_keeps env pool.log earns task known

end Ledger

end Nenes
