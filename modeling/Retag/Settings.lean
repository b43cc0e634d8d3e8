import Retag.Document.Value
import Retag.Text.Blank
import Retag.Text.Encoding

/-! Settings. Each field has the value given for it by keyword, else the one of its variable in the environment,
    else its default. The names of keywords and variables are compared without regard to case; of several keywords for
    a field the first counts, and of several variables the last. A value is acceptable or not by itself, and all fields
    with values that are not are named together. -/

namespace Retag

open Text

inductive LogFormat where
  | text
  | ecs
  deriving DecidableEq, Repr

structure Settings where
  manifestPath : String
  imageName : Option String
  logLevel : String
  logFormat : LogFormat
  serviceName : String
  serviceVersion : String
  environment : String
  deriving DecidableEq, Repr

namespace LogFormat

def word : LogFormat → String
  | .text => "text"
  | .ecs => "ecs"

end LogFormat

namespace Settings

inductive Field where
  | manifestPath
  | imageName
  | logLevel
  | logFormat
  | serviceName
  | serviceVersion
  | environment
  deriving DecidableEq, Repr

namespace Field

def keyword : Field → String
  | .manifestPath => "manifest_path"
  | .imageName => "image_name"
  | .logLevel => "log_level"
  | .logFormat => "log_format"
  | .serviceName => "service_name"
  | .serviceVersion => "service_version"
  | .environment => "environment"

/-- The lower-case name of the variable of a field. --/
def variableName (f : Field) : String :=
  "release_hook_" ++ f.keyword

/-- The value of a field that nothing is given for. --/
def default : Field → Value
  | .manifestPath => .str "./config/manager/kustomization.yaml"
  | .imageName => .null
  | .logLevel => .str "INFO"
  | .logFormat => .str "text"
  | .serviceName => .str "release-hook"
  | .serviceVersion => .str "1.0.0"
  | .environment => .str "local"

end Field

/-- A character in lower case, as far as the result is ASCII: the capital letters of ASCII and the sign for
    kelvin. --/
def lower (c : Char) : Char :=
  if c = '\u212a' then 'k' else c.toLower

def lowerName (name : String) : String :=
  String.ofList (name.toList.map lower)

abbrev Keywords := List (String × Value)

abbrev Environment := List (String × String)

/-- The value of the last variable with a name, whatever its case. --/
def valueIn? (env : Environment) (name : String) : Option String :=
  (env.reverse.find? fun e => lowerName e.1 == name).map Prod.snd

/-- The value of the first keyword with a name, whatever its case. --/
def given? (keywords : Keywords) (name : String) : Option Value :=
  (keywords.find? fun e => lowerName e.1 == name).map Prod.snd

/-- The value that is chosen for a field. --/
def chosen (keywords : Keywords) (env : Environment) (f : Field) : Value :=
  match given? keywords f.keyword with
  | some v => v
  | none => match valueIn? env f.variableName with
    | some s => .str s
    | none => f.default

/-- What is wrong with a value. --/
inductive Problem where
  /-- It is no text. --/
  | notText
  /-- It is bytes that are no text, or a text that is torn. --/
  | notUnicode
  /-- It is none of the words that are allowed. --/
  | notAllowed
  deriving DecidableEq, Repr

namespace Problem

def word : Problem → String
  | .notText => "string_type"
  | .notUnicode => "string_unicode"
  | .notAllowed => "literal_error"

end Problem

/-- Fields with what is wrong with their values. --/
abbrev Problems := List (Field × Problem)

/-- The text of a value: a text as it is, bytes as UTF-8. --/
def textOf (v : Value) : Except Problem String :=
  match v with
  | .scalar (.str s) => .ok s
  | .scalar (.bytes bs) => match (decode .utf8 bs).text? with
    | some cs => .ok (String.ofList cs)
    | none => .error .notUnicode
  | .scalar (.torn _) => .error .notUnicode
  | _ => .error .notText

/-- The image name of a value: none for null and for a blank text. --/
def imageNameOf (v : Value) : Except Problem (Option String) :=
  match v with
  | .scalar .null => .ok none
  | .scalar (.str s) => .ok (if isBlankText s then none else some s)
  | v => (textOf v).map some

/-- The format of a value. --/
def formatOf (v : Value) : Except Problem LogFormat :=
  match v with
  | .scalar (.str s) => if s = "text" then .ok .text else if s = "ecs" then .ok .ecs else .error .notAllowed
  | _ => .error .notAllowed

/-- What is wrong with the value of a field, if anything is. --/
def problem? (f : Field) (v : Value) : Option Problem :=
  let found {α : Type} : Except Problem α → Option Problem
    | .ok _ => none
    | .error p => some p
  match f with
  | .imageName => found (imageNameOf v)
  | .logFormat => found (formatOf v)
  | _ => found (textOf v)

def fields : List Field :=
  [.manifestPath, .imageName, .logLevel, .logFormat, .serviceName, .serviceVersion, .environment]

/-- The fields whose chosen values are not acceptable. --/
def problems (choose : Field → Value) : Problems :=
  fields.filterMap fun f => (problem? f (choose f)).map (f, ·)

/-- The settings for chosen values, if all of them are acceptable. --/
def ofChosen? (choose : Field → Value) : Except Problem Settings := do
  return {
    manifestPath := ← textOf (choose .manifestPath)
    imageName := ← imageNameOf (choose .imageName)
    logLevel := ← textOf (choose .logLevel)
    logFormat := ← formatOf (choose .logFormat)
    serviceName := ← textOf (choose .serviceName)
    serviceVersion := ← textOf (choose .serviceVersion)
    environment := ← textOf (choose .environment) }

/-- The settings for keywords in an environment. --/
def read (keywords : Keywords) (env : Environment) : Except Problems Settings :=
  let choose := chosen keywords env
  match ofChosen? choose with
  | .ok s => .ok s
  | .error _ => .error (problems choose)

end Settings

end Retag
