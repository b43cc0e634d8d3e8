import Retag.Failure
import Retag.Host
import Retag.Journal.Line
import Retag.Settings

/-! Setting up the journal. The level comes from the word in the settings, in any case; a word that stands for nothing
    gives the level of information, and one that stands for something that can be no level spoils the setup. Lines go
    to the stream of the last setup that succeeded. In the structured format every record also names a service: each
    setup in that format goes on from how records were made before it. -/

namespace Retag.Journal

/-- Where lines go, and in which format. Streams are known by number. --/
structure Handler where
  format : LogFormat
  stream : Nat
  deriving DecidableEq, Repr

/-- A record as it is made, with the service that it names. --/
structure Stamped where
  record : Record
  service : Option Service := none
  deriving Repr

/-- How records are made: as they are, or as another factory makes them and then with a service. --/
inductive Factory where
  | plain
  | naming (inner : Factory) (service : Service)
  deriving DecidableEq, Repr

namespace Factory

def make : Factory → Record → Stamped
  | .plain, r => { record := r }
  | .naming inner service, r => { inner.make r with service := some service }

/-- The number of factories that rest on each other. --/
def depth : Factory → Nat
  | .plain => 0
  | .naming inner _ => inner.depth + 1

end Factory

structure State where
  level : Level := .warning
  handlers : List Handler := []
  factory : Factory := .plain
  deriving DecidableEq, Repr

/-- A character in upper case, as far as the result is ASCII; ligatures become several letters. --/
def upper (c : Char) : List Char :=
  match c with
  | 'ß' => ['S', 'S']
  | 'ı' => ['I']
  | 'ſ' => ['S']
  | 'ﬀ' => ['F', 'F']
  | 'ﬁ' => ['F', 'I']
  | 'ﬂ' => ['F', 'L']
  | 'ﬃ' => ['F', 'F', 'I']
  | 'ﬄ' => ['F', 'F', 'L']
  | 'ﬅ' | 'ﬆ' => ['S', 'T']
  | c => [c.toUpper]

def upperWord (word : String) : String :=
  String.ofList (word.toList.flatMap upper)

def levelNames : List (String × Level) :=
  [("CRITICAL", .critical), ("FATAL", .critical), ("ERROR", .error), ("WARNING", .warning), ("WARN", .warning),
    ("INFO", .info), ("DEBUG", .debug), ("NOTSET", 0)]

/-- What a word in capitals stands for. --/
inductive Constant where
  | level (l : Level)
  | text (s : String)
  | table
  deriving DecidableEq, Repr

/-- The words in capitals that stand for something. --/
def constants : List (String × Constant) :=
  levelNames.map (fun e => (e.1, .level e.2)) ++
    [("BASIC_FORMAT", .text "%(levelname)s:%(name)s:%(message)s"), ("_STYLES", .table)]

namespace Constant

/-- A constant as a level: a level as it is, a text if it names one. --/
def asLevel : Constant → Except Breakdown Level
  | .level l => .ok l
  | .text s => match levelNames.lookup s with
    | some l => .ok l
    | none => .error .levelText
  | .table => .error .levelTable

end Constant

/-- The level that a word asks for. --/
def levelOf (word : String) : Except Breakdown Level :=
  ((constants.lookup (upperWord word)).getD (.level .info)).asLevel

def serviceOf (s : Settings) : Service :=
  ⟨s.serviceName, s.serviceVersion, s.environment⟩

/-- Sets the journal up for settings, with lines going to a stream. --/
def setUp (s : Settings) (stream : Nat) : ExceptT Breakdown (StateM State) Unit := do
  let handler : Handler := ⟨s.logFormat, stream⟩
  let level ← levelOf s.logLevel
  modify fun j => { j with level }
  modify fun j => { j with handlers := [] }
  modify fun j => { j with handlers := j.handlers ++ [handler] }
  if s.logFormat = .ecs then
    modify fun j => { j with factory := .naming j.factory (serviceOf s) }

/-- Whether the journal keeps records of a level. --/
def keeps (j : State) (level : Level) : Bool :=
  0 < level && j.level ≤ level

/-- The line that a handler makes of a record. --/
def Handler.line (h : Handler) (r : Stamped) : Line :=
  match h.format with
  | .text => .text r.record
  | .ecs => .ecs r.record r.service

/-- The lines for a record, with the streams that they go to; none for the current one. Without a handler only records
    from the level of warnings on make a line. --/
def linesFor (j : State) (r : Record) : List (Line × Option Nat) :=
  if !keeps j r.level then []
  else match j.handlers with
    | [] => if Level.warning ≤ r.level then [(.bare r.message, none)] else []
    | hs => hs.map fun h => (h.line (j.factory.make r), some h.stream)

/-- Whether a record has a further field under a name that records use for themselves; those with a service use one
    more. --/
def clashes (j : State) (r : Record) : Bool :=
  r.extra.any fun e => ownFields.contains e.1 || ((j.factory.make r).service.isSome && e.1 == "service")

/-- What is in the way of making a record that is kept: that too many factories rest on each other, or that it
    clashes. --/
def trouble? [Host] (j : State) (r : Record) : Option Breakdown :=
  if !keeps j r.level then none
  else if !Host.makes r j.factory.depth then some .stackFull
  else if clashes j r then some .reservedField
  else none

/-- The lines for records on a stream that is the current one. --/
def linesOn (j : State) (stream : Nat) (rs : List Record) : List Line :=
  rs.flatMap fun r => (linesFor j r).filterMap fun e => if e.2.getD stream = stream then some e.1 else none

end Retag.Journal
