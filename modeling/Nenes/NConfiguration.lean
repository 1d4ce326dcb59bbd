import Nenes.Program

set_option autoImplicit false

namespace Nenes

open ByteBuf

structure Configuration where
  fileDirectory : Option JString
  nenesHome : Option JString
deriving DecidableEq, Repr

def workspaceOf (conf : Option Configuration) : Option JString := conf.bind Configuration.fileDirectory

-- The platform, as far as a pathname shows it: names with file.separator between
-- them. The drives of Windows and its second separator are not modelled.
class FileSystem where
  separatorChar : UInt16

export FileSystem (separatorChar)

namespace Unix

-- Where the samples run.
scoped instance unix : FileSystem := ⟨47⟩

end Unix

-- The library's two calls for Configuration.class.
structure Gson where
  toJson : Configuration → JString
  fromJson : JString → Except Throwable (Option Configuration)

namespace NConfiguration

def nenesHome : JString := ofString ".nenes"

def defaultDirectory [FileSystem] (userHome : JString) : JString :=
  userHome ++ separatorChar :: nenesHome ++ separatorChar :: ofString "workspace"

-- Opening a FileWriter truncates the file. A failing write or flush leaves the
-- part that was written by then.
inductive WriteOutcome where
  | succeeds
  | cannotOpen
  | stops (written : Nat)
deriving DecidableEq, Repr

def WriteOutcome.file (outcome : WriteOutcome) (text : JString) (confFile : Option JString) : Option JString :=
  match outcome with
  | .succeeds => some text
  | .cannotOpen => confFile
  | .stops written => some (text.take written)

-- The static field, and the text of the file in the user's home directory.
structure Store where
  conf : Option Configuration
  confFile : Option JString
deriving DecidableEq, Repr

-- A default configuration is returned whether or not it could be written.
def readConfigFileGson [FileSystem] (gson : Gson) (userHome : JString) (outcome : WriteOutcome) (confFile : Option JString) :
    Except Throwable (Option Configuration) × Option JString :=
  match confFile with
  | some text => (gson.fromJson text, some text)
  | none =>
      let newConf : Configuration := ⟨some (defaultDirectory userHome), none⟩
      (.ok (some newConf), outcome.file (gson.toJson newConf) none)

def saveConfigFileGson (gson : Gson) (configuration : Configuration) (outcome : WriteOutcome)
    (confFile : Option JString) : Option JString :=
  outcome.file (gson.toJson configuration) confFile

-- The configuration the view shows, and the state after the request. The
-- exception of a failing write is printed and dropped.
def saveConfiguration (gson : Gson) (store : Store) (configuration : Configuration) (outcome : WriteOutcome) :
    Except Throwable Configuration × Store :=
  match configuration.fileDirectory with
  | none =>
      match store.conf with
      | none => (.error .nullPointer, store)
      | some conf => (.ok conf, store)
  | some _ => (.ok configuration, ⟨some configuration, saveConfigFileGson gson configuration outcome store.confFile⟩)

-- The constructor of a new process. A file that does not parse ends it with
-- the field still null.
def restart [FileSystem] (gson : Gson) (userHome : JString) (outcome : WriteOutcome) (store : Store) : Store :=
  match readConfigFileGson gson userHome outcome store.confFile with
  | (.ok conf, confFile) => ⟨conf, confFile⟩
  | (.error _, confFile) => ⟨none, confFile⟩

inductive ConfigurationAction where
  | saveConfiguration (configuration : Configuration) (outcome : WriteOutcome)
  | restart (outcome : WriteOutcome)
deriving DecidableEq, Repr

def step [FileSystem] (gson : Gson) (userHome : JString) (store : Store) : ConfigurationAction → Store
  | .saveConfiguration configuration outcome => (saveConfiguration gson store configuration outcome).2
  | .restart outcome => restart gson userHome outcome store

-- What one request leaves: the old state, or the submitted configuration with
-- whatever its write has made of the file.
inductive Saves (gson : Gson) (store : Store) (configuration : Configuration) (outcome : WriteOutcome) : Prop where
  | ignored (missing : configuration.fileDirectory = none)
      (same : (saveConfiguration gson store configuration outcome).2 = store)
  | stored (given : configuration.fileDirectory ≠ none)
      (same : (saveConfiguration gson store configuration outcome).2 =
        ⟨some configuration, outcome.file (gson.toJson configuration) store.confFile⟩)

theorem save_cases (gson : Gson) (store : Store) (configuration : Configuration) (outcome : WriteOutcome) :
    Saves gson store configuration outcome := by
  cases given : configuration.fileDirectory with
  | some fileDirectory =>
      refine .stored (by simp [given]) ?_
      rw [saveConfiguration, given]
      rfl
  | none =>
      refine .ignored given ?_
      rw [saveConfiguration, given]
      cases store.conf with
      | none => rfl
      | some conf => rfl

theorem restart_loaded [FileSystem] (gson : Gson) (userHome : JString) (outcome : WriteOutcome) (store : Store) (text : JString)
    (conf : Option Configuration) (stored : store.confFile = some text) (loads : gson.fromJson text = .ok conf) :
    restart gson userHome outcome store = ⟨conf, some text⟩ := by
  rw [restart, stored, readConfigFileGson, loads]

end NConfiguration

end Nenes
