import Retag.Journal.Content

/-! Records of what happened. -/

namespace Retag.Journal

/-- How much a record matters. --/
abbrev Level := Int

namespace Level

def debug : Level := 10
def info : Level := 20
def warning : Level := 30
def error : Level := 40
def critical : Level := 50

/-- The name of a level; one without a name of its own is named by its number. --/
def name : Level → String
  | 50 => "CRITICAL"
  | 40 => "ERROR"
  | 30 => "WARNING"
  | 20 => "INFO"
  | 10 => "DEBUG"
  | 0 => "NOTSET"
  | n => "Level " ++ toString n

/-- The name of a level in small letters. --/
def word (l : Level) : String :=
  String.ofList (l.name.toList.map Char.toLower)

end Level

/-- The parts of the program that keep records, under the names that their records bear. --/
inductive Channel where
  | patch
  | store
  | hook
  deriving DecidableEq, Repr

namespace Channel

def name : Channel → String
  | .patch => "apps.release_hook.application.commands.patch_image_tag"
  | .store => "apps.release_hook.infrastructure.persistence_yaml.manifest_store_yaml"
  | .hook => "apps.release_hook.presentation.hooks.release"

end Channel

/-- A record: where it comes from, how much it matters, what it says, and further fields. --/
structure Record where
  channel : String
  level : Level
  message : String
  extra : Members := []
  deriving Repr

/-- The fields that every record has for itself. --/
def ownFields : List String :=
  ["name", "msg", "args", "levelname", "levelno", "pathname", "filename", "module", "exc_info", "exc_text",
    "stack_info", "lineno", "funcName", "created", "msecs", "relativeCreated", "thread", "threadName", "processName",
    "process", "message", "asctime"]

end Retag.Journal
