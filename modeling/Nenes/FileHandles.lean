import Nenes.FileDispatch
import Nenes.FileTransfer

set_option autoImplicit false

namespace Nenes

open ByteBuf Runs FileTransfer

variable {Ch : Type}

-- The file a call has open and still means to close.
def FileTransfer.Stage.held : Stage → List Nat
  | .measuring raf => [raf]
  | .remeasuring _ raf => [raf]
  | .sending _ raf _ => [raf]
  | .bodyPending _ raf _ => [raf]
  | _ => []

def FileTransfer.Stage.ended : Stage → Bool
  | .unsent => true
  | .raised _ => true
  | .finished _ _ _ => true
  | _ => false

-- The file a step lets go of without closing it.
def leaked : Stage → Moment → List Nat
  | .measuring raf, moment => if 0 < moment.rafLength.getD 0 then [] else [raf]
  | .remeasuring _ raf, moment => if moment.rafLength ≠ none then [] else [raf]
  | .sending _ raf _, moment => if moment.secure = true → moment.rafLength ≠ none then [] else [raf]
  | _, _ => []

def ClosesFile (stage : Stage) (moment : Moment) : Prop :=
  match stage with
  | .measuring _ => 0 < moment.rafLength.getD 0
  | .remeasuring _ _ => moment.rafLength ≠ none
  | .sending _ _ _ => moment.secure = true → moment.rafLength ≠ none
  | _ => True

theorem leaked_nothing (stage : Stage) (moment : Moment) : leaked stage moment = [] ↔ ClosesFile stage moment := by
  cases stage with
  | measuring raf => simp [leaked, ClosesFile]
  | remeasuring header raf => simp [leaked, ClosesFile]
  | sending header raf length => simp [leaked, ClosesFile]
  | _ => exact ⟨fun _ => trivial, fun _ => rfl⟩

def held (calls : List (Transfer Ch)) : List Nat := calls.flatMap fun call => call.stage.held

def leaks (world : World Ch) : TransferAction Ch → List Nat
  | .sendFile _ _ _ => []
  | .proceed i moment => world.calls[i]?.toList.flatMap fun call => leaked call.stage moment

def leaksAlong [FileSystem] (world : World Ch) : List (TransferAction Ch) → List Nat
  | [] => []
  | action :: rest => leaks world action ++ leaksAlong (world.step action) rest

-- A step keeps account: what is open is what the call holds, what it has let
-- go, and what others have open.
theorem advance_balance (fileSent : MessageEventData) (fresh : Nat) (moment : Moment) (stage next : Stage)
    (effects : List StepEffect) (step : Advances fileSent fresh moment stage next effects) (handles others : List Nat)
    (balance : handles.Perm (stage.held ++ others)) :
    (effects.foldl StepEffect.onHandles handles).Perm (next.held ++ (leaked stage moment ++ others)) := by
  have kept (raf : Nat) (open_ : handles.Perm (raf :: others)) : (handles.erase raf).Perm others := by
    simpa using open_.erase raf
  cases step with
  | opened found => exact balance.cons fresh
  | reopened header found => exact balance.cons fresh
  | measured raf length known content => simpa [leaked, Stage.held, known, content, StepEffect.onHandles] using kept raf balance
  | empty raf known => simpa [leaked, Stage.held, known] using balance
  | unmeasured raf failed => simpa [leaked, Stage.held, failed] using balance
  | remeasured header raf length known => simpa [leaked, Stage.held, known] using balance
  | notRemeasured header raf failed => simpa [leaked, Stage.held, failed] using balance
  | region header raf length plain => simpa [leaked, Stage.held, plain] using balance
  | chunked header raf length last secure known => simpa [leaked, Stage.held, known] using balance
  | notChunked header raf length secure failed => simpa [leaked, Stage.held, secure, failed] using balance
  | bodyCompleted header raf body => exact kept raf balance
  | _ => exact balance

theorem held_split (calls : List (Transfer Ch)) (i : Nat) (call : Transfer Ch) (next : Stage) (found : calls[i]? = some call) :
    ∃ rest, (held calls).Perm (call.stage.held ++ rest) ∧
      (held (calls.set i { call with stage := next })).Perm (next.held ++ rest) := by
  obtain ⟨left, right, rfl, set⟩ := Pool.split_at calls i call found
  refine ⟨held left ++ held right, ?_, ?_⟩
  · rw [held, List.flatMap_append, List.flatMap_cons]
    exact List.perm_append_comm_assoc _ _ _
  · rw [set, held, List.flatMap_append, List.flatMap_cons]
    exact List.perm_append_comm_assoc _ _ _

theorem held_append (calls more : List (Transfer Ch)) : held (calls ++ more) = held calls ++ held more := List.flatMap_append

theorem step_balance [FileSystem] (world : World Ch) (action : TransferAction Ch) (others : List Nat)
    (balance : world.handles.Perm (held world.calls ++ others)) :
    (world.step action).handles.Perm (held (world.step action).calls ++ (leaks world action ++ others)) := by
  cases action with
  | sendFile registry msg element =>
      have nothing : held (Transfer.begin registry msg element).toList = [] := by
        rw [held, List.flatMap_eq_nil_iff]
        intro call member
        rw [begin_opening registry msg element call (Option.mem_toList.mp member)]
        rfl
      simpa [World.step, held_append, nothing, leaks] using balance
  | proceed i moment =>
      cases World.proceed_cases world i moment with
      | idle missing same => simpa [World.step, same, leaks, missing] using balance
      | taken call found after =>
          obtain ⟨rest, before, later⟩ := held_split world.calls i call (call.advance world.nextHandle moment).1 found
          have own : world.handles.Perm (call.stage.held ++ (rest ++ others)) := by
            rw [← List.append_assoc]
            exact balance.trans (before.append_right others)
          have next := advance_balance _ _ _ _ _ _ (advance_cases call world.nextHandle moment) world.handles _ own
          simp only [World.step, after, leaks, found, Option.toList_some, List.flatMap_cons, List.flatMap_nil, List.append_nil]
          refine next.trans ?_
          refine List.Perm.trans ?_ (later.symm.append_right _)
          rw [List.append_assoc]
          exact (List.perm_append_comm_assoc _ _ _).append_left _

theorem run_balance [FileSystem] (world : World Ch) (actions : List (TransferAction Ch)) (others : List Nat)
    (balance : world.handles.Perm (held world.calls ++ others)) :
    (run World.step world actions).handles.Perm
      (held (run World.step world actions).calls ++ (leaksAlong world actions ++ others)) := by
  induction actions generalizing world others with
  | nil => exact balance
  | cons action rest ih =>
      refine (ih (world.step action) _ (step_balance world action others balance)).trans ?_
      rw [leaksAlong, List.append_assoc]
      exact (List.perm_append_comm_assoc _ _ _).append_left _

theorem leaks_nothing (world : World Ch) (action : TransferAction Ch) : leaks world action = [] ↔ Whenever ClosesFile world action := by
  cases action with
  | sendFile registry msg element => exact ⟨fun _ => trivial, fun _ => rfl⟩
  | proceed i moment =>
      cases found : world.calls[i]? with
      | none => simp [leaks, Whenever, found]
      | some call => simp [leaks, Whenever, found, leaked_nothing]

theorem leaks_along_nothing [FileSystem] (world : World Ch) (actions : List (TransferAction Ch)) :
    leaksAlong world actions = [] ↔ Along World.step (Whenever ClosesFile) world actions := by
  induction actions generalizing world with
  | nil => exact ⟨fun _ => trivial, fun _ => rfl⟩
  | cons action rest ih => rw [leaksAlong, List.append_eq_nil_iff, leaks_nothing, ih, Along]

theorem ended_holds_nothing (calls : List (Transfer Ch)) (ended : ∀ call ∈ calls, call.stage.ended = true) : held calls = [] := by
  rw [held, List.flatMap_eq_nil_iff]
  intro call member
  have ends := ended call member
  cases stage : call.stage with
  | unsent => rfl
  | raised header => rfl
  | finished header body bodySent => rfl
  | _ =>
      rw [stage] at ends
      cases ends

def Finished (world : World Ch) : Prop := ∀ call ∈ world.calls, call.stage.ended = true

instance (world : World Ch) : Decidable (Finished world) :=
  inferInstanceAs (Decidable (∀ call ∈ world.calls, call.stage.ended = true))

theorem handles_restored [FileSystem] (handles : List Nat) (nextHandle : Nat) (actions : List (TransferAction Ch))
    (finished : Finished (run World.step (World.start handles nextHandle) actions)) :
    (run World.step (World.start handles nextHandle) actions).handles.Perm handles ↔
      Along World.step (Whenever ClosesFile) (World.start handles nextHandle) actions := by
  have balance := run_balance (World.start handles nextHandle) actions handles (List.Perm.refl handles)
  rw [ended_holds_nothing _ finished, List.nil_append] at balance
  rw [← leaks_along_nothing]
  refine ⟨fun same => ?_, fun nothing => ?_⟩
  · have lengths := (balance.symm.trans same).length_eq
    rw [List.length_append] at lengths
    exact List.eq_nil_of_length_eq_zero (by omega)
  · rw [nothing] at balance
    exact balance

def stillTransfer (length : Nat) : List (TransferAction Nat) :=
  .sendFile sampleEnv (ofString "/w/f") (ofString "a(d53f5b8e)") ::
    List.replicate 8 (.proceed 0 (Moment.still length false true))

open Unix

theorem one_byte_handles_restored :
    (run World.step (World.start [] 0) (stillTransfer 1)).handles.Perm [] ↔
      Along World.step (Whenever ClosesFile) (World.start [] 0) (stillTransfer 1) :=
  handles_restored [] 0 (stillTransfer 1) (by decide +kernel)

theorem empty_file_leaks :
    Finished (run World.step (World.start [] 0) (stillTransfer 0)) ∧
      ¬ (run World.step (World.start [] 0) (stillTransfer 0)).handles.Perm [] := by
  decide +kernel

end Nenes
