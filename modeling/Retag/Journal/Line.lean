import Retag.Journal.Record

/-! The lines of the journal. A record in the text format is one row of time, channel, level and message; in the
    structured format it is an object with a member for each of these, one for the service that it comes from, and
    one for each further field that is not null. -/

namespace Retag.Journal

/-- What a record says of the service that it comes from. --/
structure Service where
  name : String
  version : String
  environment : String
  deriving DecidableEq, Repr

inductive Line where
  /-- A record that no setup says how to write. --/
  | bare (message : String)
  /-- A record in the text format. --/
  | text (record : Record)
  /-- A record in the structured format, with the service that it names. --/
  | ecs (record : Record) (service : Option Service)
  deriving Repr

namespace Service

def content (s : Service) : Content :=
  .object [("name", .text s.name), ("version", .text s.version), ("environment", .text s.environment)]

end Service

namespace Record

/-- A record in the text format, with the time that is shown. --/
def textLine (time : String) (r : Record) : String :=
  time ++ " - " ++ r.channel ++ " - " ++ r.level.name ++ " - " ++ r.message

/-- Fields that name a part of a trace or of a service in a way of their own, and the way that is common. --/
def tracing : List (String × String) :=
  [("elasticapm_span_id", "span.id"), ("elasticapm_transaction_id", "transaction.id"),
    ("elasticapm_trace_id", "trace.id"), ("elasticapm_service_name", "service.name"),
    ("elasticapm_service_environment", "service.environment")]

/-- Gives a field its common name, unless a field has it. --/
def renamed (fields : Members) (own common : String) : Members :=
  match fields.lookup own with
  | none => fields
  | some c =>
    let others := fields.filter fun e => e.1 ≠ own
    if (others.lookup common).isSome then others else others ++ [(common, c)]

/-- The further fields of a record, with the service among them, as parts that are not null. --/
def parts (r : Record) (service : Option Service) : Members :=
  let fields := Content.partsOfAll ((service.map fun s => ("service", s.content)).toList ++ r.extra)
  let fields := tracing.foldl (fun fields e => renamed fields e.1 e.2) fields
  fields.filter fun e => !e.2.isNull && !e.1.startsWith "elasticapm_labels."

/-- The members of a record in the structured format. --/
def members (r : Record) (service : Option Service) : Members :=
  let log : Content := .object [("logger", .text r.channel), ("original", .text r.message)]
  let own : Members :=
    [("log.level", .text r.level.word), ("message", .text r.message), ("ecs.version", .text "1.6.0"), ("log", log)]
  (r.parts service).foldl (fun ms e => ms.insertField e.1 e.2) own

end Record

namespace Line

/-- A line in full, with the time of its record. --/
def write (time : String) : Line → String
  | .bare message => message
  | .text r => r.textLine time
  | .ecs r service => (Content.object (("@timestamp", .text time) :: r.members service)).write

end Line

end Retag.Journal
