import Retag.Text.Quoted

/-! What can go wrong. A refusal is reported to the caller in the words of the domain; a breakdown is none of
    these and stops the program. -/

namespace Retag

/-- An error of a file operation: its cause in words, which may be missing, and the whole error as text. --/
structure FileError where
  cause : String
  whole : String
  deriving DecidableEq, Repr

namespace FileError

/-- An error of which nothing but its text is known. --/
def bare (text : String) : FileError :=
  ⟨"", text⟩

/-- An error with a number, about the files that are named. --/
def numbered (number cause : String) (files : List String := []) : FileError :=
  let about := if files.isEmpty then "" else ": " ++ " -> ".intercalate files
  ⟨cause, "[Errno " ++ number ++ "] " ++ cause ++ about⟩

/-- The cause of the error, or the whole error where it names none. --/
def reason (e : FileError) : String :=
  if e.cause = "" then e.whole else e.cause

def denied : FileError :=
  .numbered "13" "Permission denied"

/-- The file is in use in a way that forbids the operation, as the root directory always is. --/
def busy : FileError :=
  .numbered "16" "Device or resource busy"

def isDirectory : FileError :=
  .numbered "21" "Is a directory"

def nameTooLong : FileError :=
  .numbered "36" "File name too long"

def missing : FileError :=
  .numbered "2" "No such file or directory"

def notDirectory : FileError :=
  .numbered "20" "Not a directory"

def linkLoop : FileError :=
  .numbered "40" "Too many levels of symbolic links"

end FileError

/-- Why a version is refused. --/
inductive BadVersion where
  /-- It is no text but a value of the named kind. --/
  | notText (kind : String)
  | blank
  /-- It does not follow the grammar of tags. --/
  | badFormat (version : Text.Wobbly)
  /-- The properties of a release hold no version that is a text and not blank. --/
  | missing
  deriving DecidableEq, Repr

/-- Why a manifest is not in order. --/
inductive Malformation where
  | notMapping
  | imagesMissing
  | imagesNotList
  | imagesEmpty
  | firstNotMapping
  | noImage (name : String)
  /-- The text is no markup of one document. --/
  | badMarkup
  /-- The bytes are no text in the named encoding. --/
  | notText (encoding : String)
  deriving DecidableEq, Repr

/-- What a caller is told. --/
inductive Refusal where
  | version (why : BadVersion)
  | notFound (path : String)
  | malformed (path : String) (why : Malformation)
  | fileError (path : String) (error : FileError)
  deriving DecidableEq, Repr

/-- What stops the program. --/
inductive Breakdown where
  /-- A timestamp names no day, time or clock offset. --/
  | impossibleDate
  /-- A text is tagged as a timestamp and has another shape. --/
  | notTimestamp
  /-- A mapping stands for a timestamp. --/
  | mappingAsTimestamp
  /-- A text is tagged as a truth value and is none. --/
  | notTruth
  /-- A numeral has no characters. --/
  | emptyNumeral
  /-- A text is tagged as a number and is none, or is too long a numeral. --/
  | badNumeral
  /-- A place of a number to base sixty is beyond the range of floating-point numbers. --/
  | hugePlace
  /-- A whole number has too many digits to be written. --/
  | longNumber
  /-- A mapping stands for a scalar that it holds itself. --/
  | endlessScalar
  /-- An escape names a number that is no character. --/
  | noCharacter
  /-- An escape names a number of more than 31 bits. --/
  | wideCharacter
  /-- Following the links of a path leads to no end. --/
  | endlessPath
  /-- The name of a file or of an encoding holds a null character. --/
  | nullInName
  /-- No encoding has the name that was asked for. --/
  | noEncoding
  /-- The bytes lack the byte order mark that their encoding needs. --/
  | noByteOrder
  /-- A field of a record has a name that every record uses for itself. --/
  | reservedField
  /-- A level name stands for a text that is no level. --/
  | levelText
  /-- A level name stands for something that can be no level. --/
  | levelTable
  /-- The stack has no room for what is nested too deep. --/
  | stackFull
  /-- The output takes no line with such a character. --/
  | unencodable
  deriving DecidableEq, Repr

inductive Failure where
  | refused (why : Refusal)
  | broken (why : Breakdown)
  deriving DecidableEq, Repr

namespace BadVersion

def message : BadVersion → String
  | .notText kind => "Version must be a string, got " ++ kind
  | .blank => "Version cannot be empty"
  | .badFormat version => "Invalid version format: " ++ version.quoted
  | .missing => "Release properties must include a non-empty 'version'"

end BadVersion

namespace Malformation

def reason : Malformation → String
  | .notMapping => "top-level document is not a mapping"
  | .imagesMissing => "missing 'images' list"
  | .imagesNotList => "'images' is not a list"
  | .imagesEmpty => "'images' list is empty"
  | .firstNotMapping => "images[0] is not a mapping"
  | .noImage name => "no image named '" ++ name ++ "'"
  | .badMarkup => "invalid YAML: ..."
  | .notText encoding => "not " ++ encoding ++ " text"

end Malformation

namespace Refusal

def message : Refusal → String
  | .version why => why.message
  | .notFound path => "Manifest not found: " ++ path
  | .malformed path why => "Malformed manifest (" ++ path ++ "): " ++ why.reason
  | .fileError path error => "Manifest I/O failed (" ++ path ++ "): " ++ error.reason

end Refusal

end Retag
