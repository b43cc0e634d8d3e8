import Retag.Manifest.Patch
import Retag.Settings
import Retag.Text.Blank

/-! The hook that runs before the commit of a release: it patches the manifest of the settings with the version
    among the properties of the release. The version is asked for before anything else. -/

namespace Retag.Hook

open Files Journal Manifest

variable [Host]

/-- The properties of a release. --/
abbrev Properties := List (String × Value)

def versionKey : String := "version"

/-- The version of a release: a text that is not blank. --/
def version (properties : Properties) : Except BadVersion Text.Wobbly :=
  match properties.lookup versionKey with
  | some (.scalar (.str s)) => if Text.isBlankText s then .error .missing else .ok s
  | some (.scalar (.torn t)) => .ok (.torn t)
  | _ => .error .missing

def request (settings : Settings) (version : Text.Wobbly) : Request :=
  { version := .ofText version, path := settings.manifestPath, selector := settings.imageName }

def invoked (version : Text.Wobbly) : Record :=
  { channel := Channel.hook.name, level := .debug, message := "pre_commit hook invoked",
    extra := [("version", .text version)] }

def patch (fault : Option Fault) (t : FileTree) (settings : Settings) (version : Text.Wobbly) : Outcome Patched :=
  let o := Manifest.patch fault t (request settings version)
  { o with records := invoked version :: o.records }

/-- Runs the hook for the properties of a release. --/
def preCommit (fault : Option Fault) (t : FileTree) (settings : Settings) (properties : Properties) :
    Outcome Patched :=
  match version properties with
  | .error e => ⟨.error (.refused (.version e)), t, []⟩
  | .ok v => patch fault t settings v

end Retag.Hook
