import Nenes.Base.Runs
import Nenes.DirWatchService
import Nenes.SavedConfiguration

set_option autoImplicit false

namespace Nenes

open ByteBuf Runs DirWatchService

-- The names a path leads through from the root. A relative one starts from the
-- directory the process runs in.
def names [FileSystem] (path : JString) : List JString := (path.splitOn separatorChar).filter fun name => name ≠ []

def resolve [FileSystem] (userDir : List JString) (path : JString) : List JString :=
  if path.head? = some separatorChar then names path else userDir ++ names path

-- The service and NFileCommand are on one directory: new files are reported from
-- it alone, and a request lists it and opens the selected names in it.
structure WatchesAt [FileSystem] (gson : Gson) (userDir : List JString) (state : State) (directory : JString) : Prop where
  registered : state.registered = some directory
  configured : workspaceOf state.store.conf = some directory
  reports : ∀ other name, (step gson state (.created other name)).events =
    state.events ++ if other = directory then [fileIn name] else []
  lists : ∀ selected, (step gson state (.nfile selected)).listed = state.listed ++ [directory]
  opens : ∀ selected, ∃ paths, (step gson state (.nfile selected)).sent = state.sent ++ paths ∧
    paths.map (resolve userDir) = selected.map fun name => resolve userDir directory ++ names name

def WatchesWorkspace [FileSystem] (gson : Gson) (userDir : List JString) (state : State) : Prop :=
  ∃ directory, WatchesAt gson userDir state directory

-- A configuration is accepted when it names a directory.
def KeepsDirectory (state : State) : WorkspaceAction → Prop
  | .saveConfiguration configuration _ =>
      configuration.fileDirectory = none ∨ configuration.fileDirectory = workspaceOf state.store.conf
  | .nfile _ => True
  | .created _ _ => True

-- The empty directory is the one the process runs in, but a name behind it and a
-- separator starts from the root.
def OpensInside (userDir : List JString) (directory : JString) : Prop := directory ≠ [] ∨ userDir = []

theorem names_append [FileSystem] (directory name : JString) :
    names (directory ++ separatorChar :: name) = names directory ++ names name := by
  rw [names, List.splitOn_append_cons_self, List.filter_append]
  rfl

theorem names_root [FileSystem] : names [separatorChar] = [] := names_append [] []

theorem resolve_selected [FileSystem] (userDir : List JString) (directory name : JString)
    (inside : OpensInside userDir directory) :
    resolve userDir (NFileCommand.selectedPath (some directory) name) = resolve userDir directory ++ names name := by
  rw [NFileCommand.selectedPath, Option.getD_some, resolve, resolve, names_append]
  cases directory with
  | nil =>
      obtain ⟨⟩ | rfl := inside
      · contradiction
      · simp
  | cons first rest =>
      rw [List.cons_append, List.head?_cons, List.head?_cons]
      split
      · rfl
      · exact (List.append_assoc _ _ _).symm

theorem opens_inside [FileSystem] (userDir : List JString) (directory : JString)
    (same : resolve userDir (NFileCommand.selectedPath (some directory) []) = resolve userDir directory ++ names []) :
    OpensInside userDir directory := by
  cases directory with
  | cons first rest => exact .inl (List.cons_ne_nil first rest)
  | nil =>
      have stays : userDir = names [separatorChar] := by simpa [NFileCommand.selectedPath, resolve, names] using same.symm
      exact .inr (stays.trans names_root)

theorem watches_exact [FileSystem] (gson : Gson) (userDir : List JString) (state : State) (directory : JString) :
    WatchesAt gson userDir state directory ↔
      state.registered = some directory ∧ workspaceOf state.store.conf = some directory ∧ OpensInside userDir directory := by
  refine ⟨fun watches => ⟨watches.registered, watches.configured, ?_⟩, fun ⟨registered, configured, inside⟩ =>
    ⟨registered, configured, fun other name => ?_, fun selected => (nfile_workspace state selected directory configured).2,
      fun selected => ⟨_, (nfile_workspace state selected directory configured).1, ?_⟩⟩⟩
  · obtain ⟨paths, sent, located⟩ := watches.opens [[]]
    rw [step, (nfile_workspace state [[]] directory watches.configured).1] at sent
    rw [← List.append_cancel_left sent] at located
    exact opens_inside userDir directory (List.cons.inj located).1
  · rw [step, registered]
    by_cases here : other = directory
    · rw [if_pos here, if_pos (congrArg some here.symm)]
    · rw [if_neg here, if_neg fun same => here (Option.some.inj same).symm, List.append_nil]
  · rw [List.map_map]
    exact List.map_congr_left fun name _ => resolve_selected userDir directory name inside

theorem saved_workspace (gson : Gson) (store : NConfiguration.Store) (configuration : Configuration)
    (outcome : NConfiguration.WriteOutcome) :
    workspaceOf (NConfiguration.saveConfiguration gson store configuration outcome).2.conf =
      configuration.fileDirectory.or (workspaceOf store.conf) := by
  cases NConfiguration.save_cases gson store configuration outcome with
  | ignored missing same => rw [same, missing, Option.none_or]
  | stored given same =>
      obtain ⟨directory, named⟩ := Option.ne_none_iff_exists'.mp given
      rw [same, named, Option.some_or]
      exact named

theorem keeps_directory_exact [FileSystem] (gson : Gson) (userDir : List JString) (state : State) (action : WorkspaceAction)
    (watches : WatchesWorkspace gson userDir state) :
    WatchesWorkspace gson userDir (step gson state action) ↔ KeepsDirectory state action := by
  obtain ⟨directory, watches⟩ := watches
  obtain ⟨registered, configured, inside⟩ := (watches_exact gson userDir state directory).mp watches
  have next : WatchesWorkspace gson userDir (step gson state action) ↔
      workspaceOf (step gson state action).store.conf = some directory := by
    simp only [WatchesWorkspace, watches_exact, step_registered, registered]
    exact ⟨fun ⟨other, same, kept, _⟩ => Option.some.inj same ▸ kept, fun kept => ⟨directory, rfl, kept, inside⟩⟩
  rw [next]
  cases action with
  | nfile selected =>
      rw [step, (nfile_kept state selected).1]
      exact ⟨fun _ => trivial, fun _ => configured⟩
  | created other name =>
      refine ⟨fun _ => trivial, fun _ => ?_⟩
      rw [step]
      split
      · exact configured
      · exact configured
  | saveConfiguration configuration outcome =>
      rw [step, saved_workspace, KeepsDirectory, configured]
      cases configuration.fileDirectory with
      | none => simp
      | some submitted => simp

theorem watched_directory [FileSystem] (gson : Gson) (userDir : List JString) (registers : JString → Bool)
    (store : NConfiguration.Store) (actions : List WorkspaceAction) :
    Always (step gson) (WatchesWorkspace gson userDir) (startup registers store) actions ↔
      (∃ directory, workspaceOf store.conf = some directory ∧ registers directory = true ∧ OpensInside userDir directory) ∧
        Along (step gson) KeepsDirectory (startup registers store) actions := by
  have initial : WatchesWorkspace gson userDir (startup registers store) ↔
      ∃ directory, workspaceOf store.conf = some directory ∧ registers directory = true ∧ OpensInside userDir directory := by
    simp only [WatchesWorkspace, watches_exact, startup, watch, Option.filter_eq_some_iff]
    exact ⟨fun ⟨directory, found, _, inside⟩ => ⟨directory, found.1, found.2, inside⟩,
      fun ⟨directory, found, allowed, inside⟩ => ⟨directory, ⟨found, allowed⟩, found, inside⟩⟩
  have exactly := always_iff_along (step gson) (fun _ => True) (WatchesWorkspace gson userDir) KeepsDirectory
    (fun _ _ _ => trivial) (fun state action _ => keeps_directory_exact gson userDir state action) (startup registers store)
    actions trivial
  refine ⟨fun always => ?_, fun guarded => (exactly (initial.mpr guarded.1)).mpr guarded.2⟩
  have watches := always_start (step gson) (WatchesWorkspace gson userDir) (startup registers store) actions always
  exact ⟨initial.mp watches, (exactly watches).mp always⟩

open Unix

theorem saved_directory_is_not_watched :
    ¬ Always (step sampleGson) (WatchesWorkspace sampleGson []) (startup (fun _ => true) ⟨some (sampleConf "/w"), none⟩)
      [.saveConfiguration (sampleConf "/x") .succeeds] := by
  intro always
  obtain ⟨directory, watches⟩ := always.2
  have same := watches.registered.trans watches.configured.symm
  revert same
  decide

end Nenes
