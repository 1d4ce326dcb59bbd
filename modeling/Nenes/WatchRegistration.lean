import Nenes.WatchLoop

set_option autoImplicit false

namespace Nenes

open ByteBuf

namespace DirWatchService

-- What newWatchService and register do. After a caught IOException the first
-- leaves a null service behind, and the second a service without a key.
inductive Registration where
  | noService
  | refused
  | keys (turns : List Turn)
deriving DecidableEq, Repr

inductive WatchEnd where
  | returned
  | waiting
  | raised (exception : Throwable)
deriving DecidableEq, Repr

structure WatchRun where
  registered : List JString
  published : List MessageEventData
  ending : WatchEnd
deriving DecidableEq, Repr

-- The part of watch(String) from newWatchService on. Registrations are numbered
-- in the order they are made.
def watchDirectory (registration : Nat → Registration) (earlier : WatchRun) (targetDir : JString) : WatchRun :=
  match registration earlier.registered.length with
  | .noService => { earlier with ending := .raised .nullPointer }
  | .refused => { earlier with ending := .waiting }
  | .keys turns =>
      ⟨earlier.registered ++ [targetDir], earlier.published ++ (watchLoop turns).published,
        if (watchLoop turns).stopped then .returned else .waiting⟩

-- watch(String) with room for that many frames; none is the overflow of the
-- stack. A call that comes back from the inner one goes on with the empty path.
def watchPath (conf : Option Configuration) (registration : Nat → Registration) : Nat → Option JString → Option WatchRun
  | 0, _ => none
  | _ + 1, some path => some (watchDirectory registration ⟨[], [], .returned⟩ path)
  | depth + 1, none =>
      match conf with
      | none => some ⟨[], [], .raised .nullPointer⟩
      | some configuration =>
          (watchPath conf registration depth configuration.fileDirectory).map fun inner =>
            match inner.ending with
            | .returned => watchDirectory registration inner []
            | _ => inner

def watchThread (conf : Option Configuration) (registration : Nat → Registration) (depth : Nat) : Option WatchRun :=
  match conf with
  | none => some ⟨[], [], .raised .nullPointer⟩
  | some configuration => watchPath conf registration depth configuration.fileDirectory

structure KeySequence where
  turns : List Turn
  ends : turns.any Turn.invalid = true

def registrations (keys : Nat → KeySequence) (n : Nat) : Registration := .keys (keys n).turns

def RegistersOnce (configuration : Configuration) (keys : Nat → KeySequence) (path : Option JString) : Prop :=
  ∃ depth outcome, watchPath (some configuration) (registrations keys) depth path = some outcome ∧
    outcome.ending = .returned ∧ outcome.registered = (path.or configuration.fileDirectory).toList

theorem key_sequence_ends (keys : KeySequence) : (watchLoop keys.turns).stopped = true :=
  (watch_loop_stopped keys.turns).trans keys.ends

theorem watch_directory_keys (keys : Nat → KeySequence) (earlier : WatchRun) (targetDir : JString) :
    (watchDirectory (registrations keys) earlier targetDir).registered = earlier.registered ++ [targetDir] ∧
      (watchDirectory (registrations keys) earlier targetDir).ending = .returned := by
  refine ⟨rfl, ?_⟩
  simp only [watchDirectory, registrations, key_sequence_ends, if_true]

-- The method calls itself with the argument it was called with.
theorem null_directory_recurses (conf : Option Configuration) (registration : Nat → Registration)
    (configured : conf ≠ none) (missing : workspaceOf conf = none) (depth : Nat) :
    watchPath conf registration depth none = none := by
  obtain ⟨configuration, rfl⟩ := Option.ne_none_iff_exists'.mp configured
  induction depth with
  | zero => rfl
  | succ depth ih =>
      rw [watchPath, show configuration.fileDirectory = none from missing, ih]
      rfl

theorem watch_path_deeper (conf : Option Configuration) (registration : Nat → Registration) (depth : Nat)
    (path : Option JString) (outcome : WatchRun) (ended : watchPath conf registration depth path = some outcome) :
    watchPath conf registration (depth + 1) path = some outcome := by
  induction depth generalizing path outcome with
  | zero => cases ended
  | succ depth ih =>
      cases path with
      | some path => exact ended
      | none =>
          cases conf with
          | none => exact ended
          | some configuration =>
              rw [watchPath, Option.map_eq_some_iff] at ended
              obtain ⟨inner, reached, same⟩ := ended
              rw [watchPath, ih configuration.fileDirectory inner reached, Option.map_some, same]

-- The inner call registers the configured directory, and the outer one then the
-- working directory.
theorem null_path_registers_twice (configuration : Configuration) (keys : Nat → KeySequence) (directory : JString)
    (configured : configuration.fileDirectory = some directory) (depth : Nat) (outcome : WatchRun)
    (ended : watchPath (some configuration) (registrations keys) depth none = some outcome) :
    outcome.registered = [directory, []] := by
  cases depth with
  | zero => cases ended
  | succ depth =>
      rw [watchPath, configured] at ended
      cases depth with
      | zero => cases ended
      | succ depth =>
          obtain ⟨registered, returned⟩ := watch_directory_keys keys ⟨[], [], .returned⟩ directory
          simp only [watchPath, Option.map_some, returned, Option.some.injEq] at ended
          rw [← ended, (watch_directory_keys keys _ []).1, registered]
          rfl

theorem null_path_not_once (configuration : Configuration) (keys : Nat → KeySequence) :
    ¬ RegistersOnce configuration keys none := by
  intro once
  obtain ⟨depth, outcome, ended, _, registered⟩ := once
  cases configured : configuration.fileDirectory with
  | none =>
      rw [null_directory_recurses (some configuration) _ (Option.some_ne_none _) configured depth] at ended
      cases ended
  | some directory =>
      rw [null_path_registers_twice configuration keys directory configured depth outcome ended, configured] at registered
      simp at registered

theorem registers_once (configuration : Configuration) (keys : Nat → KeySequence) (path : Option JString) :
    RegistersOnce configuration keys path ↔ path ≠ none := by
  cases path with
  | none => exact ⟨fun once => absurd once (null_path_not_once configuration keys), fun given => absurd rfl given⟩
  | some path =>
      obtain ⟨registered, returned⟩ := watch_directory_keys keys ⟨[], [], .returned⟩ path
      refine ⟨fun _ => Option.some_ne_none path, fun _ => ⟨1, _, rfl, returned, ?_⟩⟩
      rw [registered, Option.some_or]
      rfl

def oneInvalidKey (_ : Nat) : KeySequence := ⟨[.key [] false], rfl⟩

theorem null_path_registers_otherwise :
    ¬ RegistersOnce ⟨none, none⟩ oneInvalidKey none ∧ ¬ RegistersOnce ⟨some (ofString "/w"), none⟩ oneInvalidKey none :=
  ⟨null_path_not_once _ _, null_path_not_once _ _⟩

theorem thread_registers (registers : JString → Bool) (conf : Option Configuration) (registration : Nat → Registration)
    (agree : ∀ directory, workspaceOf conf = some directory → (registers directory = true ↔ ∃ turns, registration 0 = .keys turns))
    (depth : Nat) (outcome : WatchRun) (ended : watchThread conf registration depth = some outcome) :
    outcome.registered = (watch registers conf).toList := by
  cases conf with
  | none =>
      obtain rfl := Option.some.inj ended
      rfl
  | some configuration =>
      rw [watchThread] at ended
      cases configured : configuration.fileDirectory with
      | none =>
          rw [configured, null_directory_recurses (some configuration) registration (Option.some_ne_none _) configured] at ended
          cases ended
      | some directory =>
          rw [configured] at ended
          cases depth with
          | zero => cases ended
          | succ depth =>
              obtain rfl := Option.some.inj ended
              have same : workspaceOf (some configuration) = some directory := configured
              have registered := agree directory same
              rw [watch, same, watchDirectory, Option.filter_some, List.length_nil]
              cases first : registration 0 with
              | keys turns =>
                  rw [if_pos (registered.mpr ⟨turns, first⟩)]
                  rfl
              | _ =>
                  have refused : ¬ registers directory = true := by simp [registered, first]
                  rw [if_neg refused]
                  rfl

end DirWatchService

end Nenes
