import Retag.Calendar.Timestamp

/-! Tags of nodes. A tag says what a node stands for; a scalar without a tag gets one by its form. -/

namespace Retag.Markup

/-- What a node stands for. --/
inductive Tag where
  | null
  | bool
  | int
  | float
  | binary
  | timestamp
  | str
  | seq
  | map
  | set
  | omap
  | pairs
  /-- The key whose value is merged into the mapping around it. --/
  | merge
  /-- The key whose value stands for the mapping around it where a scalar is wanted. --/
  | value
  | other (text : String)
  deriving DecidableEq, Repr

namespace Tag

/-- The start of the text of every tag of the language. --/
def stem : String := "tag:yaml.org,2002:"

def ofText (text : String) : Tag :=
  if text = stem ++ "null" then .null
  else if text = stem ++ "bool" then .bool
  else if text = stem ++ "int" then .int
  else if text = stem ++ "float" then .float
  else if text = stem ++ "binary" then .binary
  else if text = stem ++ "timestamp" then .timestamp
  else if text = stem ++ "str" then .str
  else if text = stem ++ "seq" then .seq
  else if text = stem ++ "map" then .map
  else if text = stem ++ "set" then .set
  else if text = stem ++ "omap" then .omap
  else if text = stem ++ "pairs" then .pairs
  else if text = stem ++ "merge" then .merge
  else if text = stem ++ "value" then .value
  else .other text

end Tag

/-! ### Forms of scalars -/

namespace Form

/-- Takes one line feed off the end. --/
def dropLineFeed (cs : List Char) : List Char :=
  match cs.reverse with
  | '\n' :: rest => rest.reverse
  | _ => cs

/-- Takes a sign off. --/
def unsigned : List Char → List Char
  | '+' :: rest | '-' :: rest => rest
  | cs => cs

/-- Whether a character is a digit of a class or an underscore. --/
def orUnderscore (p : Char → Bool) (c : Char) : Bool :=
  p c || c == '_'

def isBinary (c : Char) : Bool :=
  c == '0' || c == '1'

def isOctal (c : Char) : Bool :=
  '0' ≤ c && c ≤ '7'

def isHex (c : Char) : Bool :=
  c.isDigit || ('a' ≤ c && c ≤ 'f') || ('A' ≤ c && c ≤ 'F')

/-- Whether a text is one or more characters of a class. --/
def someOf (p : Char → Bool) (cs : List Char) : Bool :=
  !cs.isEmpty && cs.all p

/-- Whether a text is a digit and then digits and underscores. --/
def isDigits : List Char → Bool
  | c :: rest => c.isDigit && rest.all (orUnderscore Char.isDigit)
  | [] => false

/-- Whether a text is a number below sixty, in one or two digits. --/
def isSixty : List Char → Bool
  | [c] => c.isDigit
  | [c, d] => '0' ≤ c && c ≤ '5' && d.isDigit
  | _ => false

/-- The parts of a text between colons. --/
def colonParts : List Char → List (List Char)
  | [] => [[]]
  | c :: rest =>
    if c = ':' then [] :: colonParts rest
    else match colonParts rest with
      | part :: parts => (c :: part) :: parts
      | [] => [[c]]

/-- Whether a text starts with a digit other than zero. --/
def startsNonzero : List Char → Bool
  | c :: _ => c.isDigit && c != '0'
  | [] => false

def isBool (cs : List Char) : Bool :=
  ["yes", "Yes", "YES", "no", "No", "NO", "true", "True", "TRUE", "false", "False", "FALSE", "on", "On", "ON", "off",
    "Off", "OFF"].contains (String.ofList cs)

def isNull (cs : List Char) : Bool :=
  ["~", "null", "Null", "NULL", ""].contains (String.ofList cs)

/-- Whether a text is a whole number: binary, octal, decimal, hexadecimal, or to base sixty. --/
def isInt (cs : List Char) : Bool :=
  match unsigned cs with
  | '0' :: 'b' :: rest => someOf (orUnderscore isBinary) rest
  | '0' :: 'x' :: rest => someOf (orUnderscore isHex) rest
  | ['0'] => true
  | '0' :: rest => someOf (orUnderscore isOctal) rest
  | cs => startsNonzero cs && match colonParts cs with
    | [part] => isDigits part
    | part :: parts => isDigits part && parts.all isSixty
    | [] => false

/-- Whether a text is nothing, or an exponent with a sign. --/
def isExponent : List Char → Bool
  | [] => true
  | e :: sign :: rest => (e == 'e' || e == 'E') && (sign == '+' || sign == '-') && someOf Char.isDigit rest
  | _ => false

/-- Whether a text is digits with underscores and then perhaps an exponent. --/
def isFraction (cs : List Char) : Bool :=
  isExponent (cs.dropWhile (orUnderscore Char.isDigit))

/-- Whether a text is a floating-point number: decimal with a point, to base sixty with a point, an infinity or a
    NaN. A number that starts with its point has no sign. --/
def isFloat (cs : List Char) : Bool :=
  let body := unsigned cs
  let whole := body.takeWhile (· != '.')
  let fraction := (body.dropWhile (· != '.')).tail
  let pointed := body.contains '.'
  let decimal := pointed && isDigits whole && isFraction fraction
  let pure := match cs with
    | '.' :: d :: rest => d.isDigit && isFraction rest
    | _ => false
  let sixty := pointed && fraction.all (orUnderscore Char.isDigit) && match colonParts whole with
    | part :: p :: parts => isDigits part && (p :: parts).all isSixty
    | _ => false
  let word := String.ofList body
  decimal || pure || sixty || [".inf", ".Inf", ".INF"].contains word ||
    [".nan", ".NaN", ".NAN"].contains (String.ofList cs)

/-- Whether a text is a timestamp. A day alone has two digits for month and day. --/
def isTimestamp (cs : List Char) : Bool :=
  !cs.contains '\n' && match Calendar.readParts? cs with
    | some parts => parts.time.isSome || cs.length == 10
    | none => false

end Form

namespace Tag

/-- The tag of a scalar by its form. One line feed at the end does not count, except for a text that is nothing
    else. --/
def ofForm (text : List Char) : Tag :=
  let cs := if text = ['\n'] then text else Form.dropLineFeed text
  if Form.isBool cs then .bool
  else if Form.isFloat cs then .float
  else if Form.isInt cs then .int
  else if cs = ['<', '<'] then .merge
  else if Form.isNull cs then .null
  else if Form.isTimestamp cs then .timestamp
  else if cs = ['='] then .value
  else if cs = ['!'] || cs = ['&'] || cs = ['*'] then .other (stem ++ "yaml")
  else .str

end Tag

end Retag.Markup
