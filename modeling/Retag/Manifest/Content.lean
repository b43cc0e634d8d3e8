import Retag.Host
import Retag.Markup.Document
import Retag.Markup.Layout
import Retag.Markup.Token.Stream
import Retag.Text.Source

/-! The content of a manifest file: bytes to document and back. A file without a document, or with null as its
    document, holds the empty mapping. -/

namespace Retag

open Markup Text

/-- An encoding under the name that it was asked for by. --/
structure Charset where
  name : String
  encoding : Encoding
  deriving DecidableEq, Repr

namespace Charset

/-- The encoding of manifests unless another one is asked for. --/
def standard : Charset :=
  ⟨"utf-8", .utf8⟩

end Charset

namespace Markup

/-- The document that a source says, if it says one. --/
def parse (s : Source) : Except Fault (Option Document) := do
  let ts := TokenStream.ofSource s
  match ← Tree.ofTokens ts.tokens ts.fault with
  | none => return none
  | some t =>
    let (g, root) := Graph.ofTree t
    return some (← g.document root)

/-- Reads the document of a source, as far as the stack goes. --/
def read [Host] (s : Source) : Except Fault (Option Document) :=
  if Host.reads s then (parse s).map fun d? => d?.map Document.arranged else .error (.broken .stackFull)

/-- The text of a document. --/
def render (d : Document) : Except Breakdown (List Char) := do
  return (← Outline.ofDocument d).text

/-- Writes a document, as far as the stack goes. --/
def write [Host] (d : Document) : Except Breakdown (List Char) :=
  if Host.writes d then render d else .error .stackFull

end Markup

namespace Manifest

/-- What a fault in a source means for the manifest of a path. --/
def failure (path : String) (charset : Charset) (ending : Ending) : Fault → Failure
  | .broken why => .broken why
  | .malformed => .refused (.malformed path .badMarkup)
  | .unfinished => match ending with
    | .undecodable => .refused (.malformed path (.notText charset.name))
    | .unmarked => .broken .noByteOrder
    | .complete | .unprintable => .refused (.malformed path .badMarkup)

/-- The document of a file's content. --/
def decode [Host] (path : String) (charset : Charset) (bytes : List UInt8) : Except Failure Document :=
  let source := Source.ofBytes charset.encoding bytes
  match Markup.read source with
  | .error f => .error (failure path charset source.ending f)
  | .ok none => .ok .empty
  | .ok (some d) => .ok (if d.isNull then .empty else d)

/-- The content of a file for a document. --/
def encode [Host] (d : Document) : Except Breakdown (List UInt8) :=
  (Markup.write d).map Text.encode

end Manifest

end Retag
