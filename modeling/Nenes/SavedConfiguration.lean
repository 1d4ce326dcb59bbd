import Nenes.Base.Json
import Nenes.Base.Runs
import Nenes.NConfiguration

set_option autoImplicit false

namespace Nenes

open ByteBuf Runs NConfiguration

def submitted : ConfigurationAction → Option Configuration
  | .saveConfiguration configuration _ => some configuration
  | .restart _ => none

-- After the step a restart would load the configuration that is in the field,
-- and that is the one that was stored before or the one just submitted.
structure SavedAtomically [FileSystem] (gson : Gson) (userHome : JString) (store : Store)
    (action : ConfigurationAction) : Prop where
  loads : ∀ outcome, (readConfigFileGson gson userHome outcome (step gson userHome store action).confFile).1 =
    .ok (step gson userHome store action).conf
  known : ∃ conf, (step gson userHome store action).conf = some conf ∧
    ((∀ outcome, (readConfigFileGson gson userHome outcome store.confFile).1 = .ok (some conf)) ∨
      submitted action = some conf)

-- The write goes through, or changes nothing: the file cannot be opened and the
-- submitted configuration is already the stored one.
def WritesWhole (gson : Gson) (store : Store) : ConfigurationAction → Prop
  | .restart _ => True
  | .saveConfiguration configuration outcome =>
      configuration.fileDirectory = none ∨
        match outcome with
        | .succeeds => True
        | .cannotOpen => store.conf = some configuration
        | .stops written => (gson.toJson configuration).length ≤ written

instance (gson : Gson) (store : Store) : ∀ action, Decidable (WritesWhole gson store action)
  | .restart _ => isTrue trivial
  | .saveConfiguration _ .succeeds => isTrue (.inr trivial)
  | .saveConfiguration configuration .cannotOpen =>
      inferInstanceAs (Decidable (configuration.fileDirectory = none ∨ store.conf = some configuration))
  | .saveConfiguration configuration (.stops written) =>
      inferInstanceAs (Decidable (configuration.fileDirectory = none ∨ (gson.toJson configuration).length ≤ written))

structure Stored (gson : Gson) (store : Store) (conf : Configuration) : Prop where
  field : store.conf = some conf
  file : ∃ text, store.confFile = some text ∧ gson.fromJson text = .ok (some conf)

theorem stored_loads [FileSystem] (gson : Gson) (userHome : JString) (store : Store) (conf : Configuration)
    (stored : Stored gson store conf) (outcome : WriteOutcome) :
    (readConfigFileGson gson userHome outcome store.confFile).1 = .ok (some conf) := by
  obtain ⟨text, file, loads⟩ := stored.file
  rw [file]
  exact loads

theorem whole_write (gson : Gson) (undoes : ∀ conf, gson.fromJson (gson.toJson conf) = .ok (some conf))
    (store : Store) (configuration : Configuration) (outcome : WriteOutcome) (conf : Configuration)
    (stored : Stored gson store conf) (given : configuration.fileDirectory ≠ none)
    (whole : WritesWhole gson store (.saveConfiguration configuration outcome)) :
    Stored gson ⟨some configuration, outcome.file (gson.toJson configuration) store.confFile⟩ configuration := by
  refine ⟨rfl, ?_⟩
  cases outcome with
  | succeeds => exact ⟨gson.toJson configuration, rfl, undoes configuration⟩
  | cannotOpen =>
      obtain rfl : conf = configuration := Option.some.inj (stored.field.symm.trans (whole.resolve_left given))
      exact stored.file
  | stops written =>
      refine ⟨gson.toJson configuration, ?_, undoes configuration⟩
      rw [WriteOutcome.file, List.take_of_length_le (whole.resolve_left given)]

theorem step_stored [FileSystem] (gson : Gson) (userHome : JString)
    (undoes : ∀ conf, gson.fromJson (gson.toJson conf) = .ok (some conf)) (store : Store) (action : ConfigurationAction)
    (conf : Configuration) (stored : Stored gson store conf) (whole : WritesWhole gson store action) :
    ∃ next, Stored gson (step gson userHome store action) next ∧ (next = conf ∨ submitted action = some next) := by
  cases action with
  | restart outcome =>
      obtain ⟨text, file, loads⟩ := stored.file
      refine ⟨conf, ?_, .inl rfl⟩
      rw [step, restart_loaded gson userHome outcome store text (some conf) file loads]
      exact ⟨rfl, text, rfl, loads⟩
  | saveConfiguration configuration outcome =>
      rw [step]
      cases save_cases gson store configuration outcome with
      | ignored missing same =>
          rw [same]
          exact ⟨conf, stored, .inl rfl⟩
      | stored given same =>
          rw [same]
          exact ⟨configuration, whole_write gson undoes store configuration outcome conf stored given whole, .inr rfl⟩

theorem saved_atomically [FileSystem] (gson : Gson) (userHome : JString)
    (undoes : ∀ conf, gson.fromJson (gson.toJson conf) = .ok (some conf)) (conf : Configuration) (text : JString)
    (stored : gson.fromJson text = .ok (some conf)) (actions : List ConfigurationAction)
    (whole : Along (step gson userHome) (WritesWhole gson) ⟨some conf, some text⟩ actions) :
    Along (step gson userHome) (SavedAtomically gson userHome) ⟨some conf, some text⟩ actions := by
  apply along_mono (step gson userHome) (fun store => ∃ conf, Stored gson store conf) (WritesWhole gson)
  · rintro store action ⟨conf, stored⟩ whole
    obtain ⟨next, kept, _⟩ := step_stored gson userHome undoes store action conf stored whole
    exact ⟨next, kept⟩
  · rintro store action ⟨conf, stored⟩ whole
    obtain ⟨next, kept, known⟩ := step_stored gson userHome undoes store action conf stored whole
    refine ⟨fun outcome => ?_, next, kept.field, ?_⟩
    · rw [stored_loads gson userHome _ next kept, kept.field]
    · rcases known with rfl | known
      · exact .inl (stored_loads gson userHome store next stored)
      · exact .inr known
  · exact ⟨conf, rfl, text, rfl, stored⟩
  · exact whole

-- What Gson writes for strings without characters that it escapes further.
def sampleGson : Gson where
  toJson conf := Json.object (conf.fileDirectory.toList.map (Prod.mk (ofString "fileDirectory")) ++
    conf.nenesHome.toList.map (Prod.mk (ofString "nenesHome")))
  fromJson text :=
    if text = [] then .ok none
    else match Json.readObject text with
      | none => .error .jsonSyntax
      | some members => .ok (some ⟨members.lookup (ofString "fileDirectory"), members.lookup (ofString "nenesHome")⟩)

theorem sample_gson_undoes (conf : Configuration) :
    sampleGson.fromJson (sampleGson.toJson conf) = .ok (some conf) := by
  obtain ⟨fileDirectory, nenesHome⟩ := conf
  have written : sampleGson.toJson ⟨fileDirectory, nenesHome⟩ ≠ [] := nofun
  simp only [sampleGson] at written ⊢
  rw [if_neg written, Json.read_object]
  have other : (ofString "nenesHome" == ofString "fileDirectory") = false := by decide
  have another : (ofString "fileDirectory" == ofString "nenesHome") = false := by decide
  cases fileDirectory <;> cases nenesHome <;> simp [List.lookup_cons, other, another]

def sampleConf (fileDirectory : String) : Configuration := ⟨some (ofString fileDirectory), none⟩

def savedTwice : List ConfigurationAction :=
  [.saveConfiguration (sampleConf "/x") .succeeds, .restart .succeeds, .saveConfiguration (sampleConf "/y") .succeeds]

open Unix

theorem saved_twice_atomically :
    Along (step sampleGson (ofString "/home")) (SavedAtomically sampleGson (ofString "/home"))
      ⟨some (sampleConf "/w"), some (sampleGson.toJson (sampleConf "/w"))⟩ savedTwice :=
  saved_atomically sampleGson (ofString "/home") sample_gson_undoes (sampleConf "/w") (sampleGson.toJson (sampleConf "/w"))
    (sample_gson_undoes (sampleConf "/w")) savedTwice (by decide +kernel)

-- The disk is full: the file is left empty, which a restart reads as null.
theorem full_disk_loses_configuration :
    ¬ Along (step sampleGson (ofString "/home")) (SavedAtomically sampleGson (ofString "/home"))
      ⟨some (sampleConf "/w"), some (sampleGson.toJson (sampleConf "/w"))⟩
      [.saveConfiguration (sampleConf "/x") (.stops 0)] := by
  intro along
  have loads := along.1.loads .succeeds
  revert loads
  decide +kernel

end Nenes
