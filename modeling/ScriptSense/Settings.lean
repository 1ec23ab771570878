import ScriptSense.Files

/-!
Where the game and its manual are. An unset path may also be given as an empty one.
-/
namespace ScriptSense

inductive SetupError where
  | manualNotSet
  | manualMissing (folder : Text)
  | gameNotSet
  | baseMissing (folder : Text)
  deriving DecidableEq, Repr

namespace SetupError

def message : SetupError → Text
  | manualNotSet => "Unable to start because no path to the KAG Manual was provided".toList
  | manualMissing folder =>
      "Unable to start because an invalid/nonexistent path to the KAG Manual was provided: ".toList
        ++ folder
  | gameNotSet => "Unable to start because no KAG path was provided".toList
  | baseMissing folder =>
      "Unable to start because an invalid/nonexistent KAG path was provided: ".toList ++ folder

def setting : SetupError → Text
  | manualNotSet | manualMissing _ => "KAG.manual".toList
  | gameNotSet | baseMissing _ => "KAG.path".toList

end SetupError

structure Settings where
  manualRoot : Option Text
  gameRoot : Option Text
  deriving DecidableEq, Repr

namespace Settings

def folderBelow (files : FileTree) (root : Option Text) (name : Text) (unset : SetupError)
    (missing : Text → SetupError) : Except SetupError Text :=
  match root with
  | none | some [] => .error unset
  | some root =>
      let folder := Path.join root name
      if files.isFolder folder then .ok folder else .error (missing folder)

def manualFolder (settings : Settings) (files : FileTree) : Except SetupError Text :=
  folderBelow files settings.manualRoot "interface".toList .manualNotSet .manualMissing

def baseFolder (settings : Settings) (files : FileTree) : Except SetupError Text :=
  folderBelow files settings.gameRoot "Base".toList .gameNotSet .baseMissing

/-- Both folders are there; of two errors the manual's is reported. -/
def validate (settings : Settings) (files : FileTree) : Except SetupError Unit := do
  let _ ← settings.manualFolder files
  let _ ← settings.baseFolder files
  return ()

end Settings

end ScriptSense
