import Nenes.MixedFrames
import Nenes.RequestThread

set_option autoImplicit false

namespace Nenes

open ByteBuf Runs

-- What Files.newDirectoryStream makes of a directory, with the file names of its
-- entries. A broken stream throws while it is gone over.
inductive DirectoryStream where
  | entries (fileNames : List JString) (broken : Bool)
  | ioException
  | invalidPath
deriving DecidableEq, Repr

-- Paths.get(null) throws, and so does a broken stream: its exception is no
-- IOException.
def FileUtil.fileList (newDirectoryStream : JString → DirectoryStream) : Option JString → Option (List JString)
  | none => none
  | some directory =>
      match newDirectoryStream directory with
      | .entries fileNames broken => if broken then none else some fileNames
      | .ioException => some []
      | .invalidPath => none

structure FileView where
  fileList : Option (List JString)
  agents : List JString
  fileMessage : FileMessage
deriving DecidableEq, Repr

namespace NFileCommand

-- The page keeps the submitted list where the directory cannot be listed.
def view (newDirectoryStream : JString → DirectoryStream) (keys : List JString) (conf : Configuration)
    (fileMessage : FileMessage) : FileView :=
  ⟨(FileUtil.fileList newDirectoryStream conf.fileDirectory).or fileMessage.fileList, keys, fileMessage⟩

def answer [FileSystem] {Ch : Type} (env : Env Ch) (newDirectoryStream : JString → DirectoryStream) (keys : List JString)
    (conf : Option Configuration) (fileMessage : FileMessage) : Except Throwable FileView :=
  match conf with
  | none => .error .nullPointer
  | some conf =>
      match (sendCommand (some conf) fileMessage : Program Ch).raised env with
      | some exception => .error exception
      | none => .ok (view newDirectoryStream keys conf fileMessage)

end NFileCommand

def blankForm : FileMessage := ⟨none, none, none⟩

structure TickedForm where
  conf : Configuration
  agent : List JString
  ticked : List JString
deriving DecidableEq, Repr

namespace TickedForm

def request (form : TickedForm) : FrameRequest := .nfile (some form.conf) ⟨some [], some form.agent, some form.ticked⟩

-- The ticked files that can be read, once for each ticked name of the agent.
def delivers [FileSystem] {Ch : Type} [DecidableEq Ch] (env : Env Ch) (ch : Ch) (form : TickedForm) : List AgentFrame :=
  (form.agent.filter fun element => target env element = some ch).flatMap fun _ =>
    form.ticked.filterMap fun name =>
      (env.read (NFileCommand.selectedPath form.conf.fileDirectory name)).map fun content => ⟨name, content⟩

end TickedForm

structure FileName [FileSystem] (name : JString) : Prop where
  nonempty : name ≠ []
  plain : separatorChar ∉ name

theorem get_name_selected [FileSystem] (workspace : Option JString) (name : JString) (proper : FileName name) :
    getName (NFileCommand.selectedPath workspace name) = name := by
  rw [getName, NFileCommand.selectedPath, List.splitOn_append_cons_self, List.splitOn_eq_singleton proper.plain,
    List.filter_append]
  simp [proper.nonempty]

section Forms

variable {Ch : Type} [DecidableEq Ch]

theorem ticked_sends [FileSystem] (env : Env Ch) (ch : Ch) (form : TickedForm) (proper : ∀ name ∈ form.ticked, FileName name) :
    form.request.sends env ch = form.delivers env ch := by
  have typed : NFileCommand.typedFiles ⟨some [], some form.agent, some form.ticked⟩ = [] := rfl
  simp only [TickedForm.request, FrameRequest.sends, requestPaths, typed, List.nil_append, fileSends, opened,
    Option.getD_some, TickedForm.delivers, List.filterMap_map]
  apply List.flatMap_congr
  intro _ _
  apply List.filterMap_congr
  intro name member
  rw [Function.comp_apply, get_name_selected _ name (proper name member)]

omit [DecidableEq Ch] in
theorem blank_view [FileSystem] (env : Env Ch) (newDirectoryStream : JString → DirectoryStream) (keys : List JString)
    (conf : Option Configuration) (view : FileView)
    (opened : NFileCommand.answer env newDirectoryStream keys conf blankForm = .ok view) :
    view.fileList = FileUtil.fileList newDirectoryStream (workspaceOf conf) := by
  cases conf with
  | none => cases opened
  | some conf =>
      have quiet : (NFileCommand.sendCommand (some conf) blankForm : Program Ch).raised env = none := rfl
      simp only [NFileCommand.answer, quiet] at opened
      cases opened
      exact Option.or_none

theorem listed_names_proper [FileSystem] (newDirectoryStream : JString → DirectoryStream)
    (proper : ∀ directory fileNames broken, newDirectoryStream directory = .entries fileNames broken →
      ∀ name ∈ fileNames, FileName name) (directory : Option JString) (fileNames : List JString)
    (listed : FileUtil.fileList newDirectoryStream directory = some fileNames) : ∀ name ∈ fileNames, FileName name := by
  cases directory with
  | none => cases listed
  | some directory =>
      rw [FileUtil.fileList] at listed
      split at listed
      · rename_i names broken stream
        split at listed
        · cases listed
        · cases listed
          exact proper directory fileNames broken stream
      · cases listed
        exact fun name member => nomatch member
      · cases listed

end Forms

def sampleStream (directory : JString) : DirectoryStream :=
  if directory = ofString "/w" then .entries [ofString "f", ofString "g"] false else .ioException

def sampleForm : TickedForm := ⟨⟨some (ofString "/w"), none⟩, [ofString "a(d53f5b8e)"], [ofString "g"]⟩

def samplePage : FileView := ⟨some [ofString "f", ofString "g"], [ofString "a(d53f5b8e)"], blankForm⟩

open Unix

theorem sample_stream_proper (directory : JString) (fileNames : List JString) (broken : Bool)
    (stream : sampleStream directory = .entries fileNames broken) : ∀ name ∈ fileNames, FileName name := by
  rw [sampleStream] at stream
  split at stream
  · cases stream
    rintro name (_ | ⟨_, _ | ⟨_, member⟩⟩)
    · exact ⟨by decide +kernel, by decide +kernel⟩
    · exact ⟨by decide +kernel, by decide +kernel⟩
    · cases member
  · cases stream

end Nenes
