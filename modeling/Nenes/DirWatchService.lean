import Nenes.NFileCommand

set_option autoImplicit false

namespace Nenes

open ByteBuf

namespace DirWatchService

-- The directory the service's thread is registered on. A null directory sends
-- watch into itself until the stack overflows, and after a failed register the
-- loop waits for keys that never come.
def watch (registers : JString → Bool) (conf : Option Configuration) : Option JString :=
  (workspaceOf conf).filter registers

def fileIn (name : JString) : MessageEventData :=
  ⟨.fileIn, ofString "DirWatchService", ofString "ENTRY_CREATE for path: " ++ name⟩

-- listed holds the directory that each /nfile request lists, and sent the paths
-- its SendFile calls get for the files selected on the page, agent by agent.
structure State where
  store : NConfiguration.Store
  registered : Option JString
  events : List MessageEventData
  listed : List JString
  sent : List JString
deriving DecidableEq, Repr

def startup (registers : JString → Bool) (store : NConfiguration.Store) : State :=
  ⟨store, watch registers store.conf, [], [], []⟩

-- Without a configuration the request ends before it sends or lists anything, and
-- Paths.get does not take a null directory.
def nfile [FileSystem] (state : State) (selected : List JString) : State :=
  match state.store.conf with
  | none => state
  | some conf =>
      { state with
        sent := state.sent ++ selected.map (NFileCommand.selectedPath conf.fileDirectory)
        listed := state.listed ++ conf.fileDirectory.toList }

inductive WorkspaceAction where
  | saveConfiguration (configuration : Configuration) (outcome : NConfiguration.WriteOutcome)
  | nfile (selected : List JString)
  | created (directory name : JString)
deriving DecidableEq, Repr

def step [FileSystem] (gson : Gson) (state : State) : WorkspaceAction → State
  | .saveConfiguration configuration outcome =>
      { state with store := (NConfiguration.saveConfiguration gson state.store configuration outcome).2 }
  | .nfile selected => nfile state selected
  | .created directory name =>
      if state.registered = some directory then { state with events := state.events ++ [fileIn name] } else state

theorem nfile_kept [FileSystem] (state : State) (selected : List JString) :
    (nfile state selected).store = state.store ∧ (nfile state selected).registered = state.registered ∧
      (nfile state selected).events = state.events := by
  rw [nfile]
  cases state.store.conf with
  | none => exact ⟨rfl, rfl, rfl⟩
  | some conf => exact ⟨rfl, rfl, rfl⟩

theorem nfile_workspace [FileSystem] (state : State) (selected : List JString) (directory : JString)
    (configured : workspaceOf state.store.conf = some directory) :
    (nfile state selected).sent = state.sent ++ selected.map (NFileCommand.selectedPath (some directory)) ∧
      (nfile state selected).listed = state.listed ++ [directory] := by
  obtain ⟨conf, stored, named⟩ := Option.bind_eq_some_iff.mp configured
  rw [nfile, stored]
  simp [named]

theorem step_registered [FileSystem] (gson : Gson) (state : State) (action : WorkspaceAction) :
    (step gson state action).registered = state.registered := by
  cases action with
  | saveConfiguration configuration outcome => rfl
  | nfile selected => exact (nfile_kept state selected).2.1
  | created directory name =>
      rw [step]
      split
      · rfl
      · rfl

end DirWatchService

end Nenes
