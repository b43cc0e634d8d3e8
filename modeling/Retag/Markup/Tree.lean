import Retag.Markup.Tag
import Retag.Markup.Token.Basic

/-! Trees of markup: what a text of tokens says, with tags resolved and with anchors and aliases as they are
    written. -/

namespace Retag.Markup

/-- A tree. An alias stands for the node with its anchor, which comes before it or around it. --/
inductive Tree where
  | alias (name : String)
  | scalar (anchor : Option String) (tag : Tag) (text : Text.Wobbly)
  | seq (anchor : Option String) (tag : Tag) (items : List Tree)
  | map (anchor : Option String) (tag : Tag) (entries : List (Tree × Tree))
  deriving Repr

namespace Tree

/-- The tree for nothing. --/
def empty : Tree :=
  .scalar none .null ""

end Tree

/-- The short forms of tags: what each handle stands for. --/
abbrev Handles := List (String × String)

/-- The handles that need no directive. --/
def Handles.standard : Handles :=
  [("!", "!"), ("!!", Tag.stem)]

/-- The anchor and the tag in front of a node. --/
structure Properties where
  anchor : Option String := none
  tag : Option String := none
  deriving DecidableEq, Repr

namespace Properties

def isNone (p : Properties) : Bool :=
  p.anchor.isNone && p.tag.isNone

/-- The tag that is asked for; a lone exclamation mark asks for none. --/
def asked (p : Properties) : Option Tag :=
  (p.tag.filter (· ≠ "!")).map Tag.ofText

/-- The tag of a scalar: the one asked for; else the one of its form, if it is plain or has a lone exclamation
    mark. --/
def scalarTag (p : Properties) (text : Text.Wobbly) (plain : Bool) : Tag :=
  match p.asked, text with
  | some t, _ => t
  | none, .whole s => if plain || p.tag.isSome then Tag.ofForm s.toList else .str
  | none, .torn _ => .str

def collectionTag (p : Properties) (usual : Tag) : Tag :=
  p.asked.getD usual

end Properties

/-- What is left to read: tokens, with the fault that comes after them, and the anchors so far. --/
structure Reader where
  tokens : List Token
  fault : Option Fault
  anchors : List String := []

namespace Reader

def peek (r : Reader) : Except Fault Token :=
  match r.tokens, r.fault with
  | t :: _, _ => .ok t
  | [], some f => .error f
  | [], none => .ok .streamEnd

def drop (r : Reader) : Reader :=
  { r with tokens := r.tokens.tail }

/-- Reads a tag with its handle replaced. --/
def tagText (handles : Handles) (handle : Option String) (rest : String) : Except Fault String :=
  match handle with
  | none => .ok rest
  | some h => match handles.lookup h with
    | some meaning => .ok (meaning ++ rest)
    | none => .error .malformed

/-- Reads the anchor and the tag in front of a node, in either order. --/
def properties (handles : Handles) (r : Reader) : Except Fault (Properties × Reader) := do
  match ← r.peek with
  | .anchor name =>
    let r := r.drop
    match ← r.peek with
    | .tag h rest => return (⟨some name, some (← tagText handles h rest)⟩, r.drop)
    | _ => return (⟨some name, none⟩, r)
  | .tag h rest =>
    let r := r.drop
    match ← r.peek with
    | .anchor name => return (⟨some name, some (← tagText handles h rest)⟩, r.drop)
    | _ => return (⟨none, some (← tagText handles h rest)⟩, r)
  | _ => return ({}, r)

/-- Notes the anchor of a node. No two nodes have the same. --/
def define (r : Reader) (p : Properties) : Except Fault Reader :=
  match p.anchor with
  | none => .ok r
  | some name => if r.anchors.contains name then .error .malformed else .ok { r with anchors := name :: r.anchors }

/-- Where a node stands: within a flow collection; within a block collection; or as key or value of a block
    mapping, where the items of a sequence need no indentation of their own. --/
inductive Place where
  | flow
  | block
  | entry
  deriving DecidableEq, Repr

/-- Whether a token can only follow a key that is nothing. --/
def endsKey : Token → Bool
  | .key | .value | .blockEnd => true
  | _ => false

/-- Whether a token can only follow an item that is nothing, in a sequence without indentation of its own. --/
def endsItem : Token → Bool
  | .blockEntry | .key | .value | .blockEnd => true
  | _ => false

mutual

def node (handles : Handles) : Nat → Place → Reader → Except Fault (Tree × Reader)
  | 0, _, _ => .error .malformed
  | fuel + 1, place, r => do
    match ← r.peek with
    | .alias name => if r.anchors.contains name then return (.alias name, r.drop) else .error .malformed
    | _ =>
      let (p, r) ← r.properties handles
      let t ← r.peek
      match t, place with
      | .blockEntry, .entry =>
        let r ← r.define p
        let (items, r) ← looseItems handles fuel r
        return (.seq p.anchor (p.collectionTag .seq) items, r)
      | .scalar text plain, _ =>
        let r ← r.define p
        return (.scalar p.anchor (p.scalarTag text plain) text, r.drop)
      | .flowSequenceStart, _ =>
        let r ← r.define p
        let (items, r) ← flowItems handles fuel true r.drop
        return (.seq p.anchor (p.collectionTag .seq) items, r)
      | .flowMappingStart, _ =>
        let r ← r.define p
        let (entries, r) ← flowEntries handles fuel true r.drop
        return (.map p.anchor (p.collectionTag .map) entries, r)
      | .blockSequenceStart, .block | .blockSequenceStart, .entry =>
        let r ← r.define p
        let (items, r) ← blockItems handles fuel r.drop
        return (.seq p.anchor (p.collectionTag .seq) items, r)
      | .blockMappingStart, .block | .blockMappingStart, .entry =>
        let r ← r.define p
        let (entries, r) ← blockEntries handles fuel r.drop
        return (.map p.anchor (p.collectionTag .map) entries, r)
      | _, _ =>
        if p.isNone then .error .malformed
        else
          let r ← r.define p
          return (.scalar p.anchor (p.scalarTag "" true) "", r)

/-- Reads a node unless the next token ends its place. --/
def nodeUnless (handles : Handles) (ends : Token → Bool) : Nat → Place → Reader → Except Fault (Tree × Reader)
  | 0, _, _ => .error .malformed
  | fuel + 1, place, r => do
    if ends (← r.peek) then return (.empty, r) else node handles fuel place r

/-- Reads the items of a block sequence and its end. --/
def blockItems (handles : Handles) : Nat → Reader → Except Fault (List Tree × Reader)
  | 0, _ => .error .malformed
  | fuel + 1, r => do
    match ← r.peek with
    | .blockEntry =>
      let (item, r) ← nodeUnless handles (fun t => t == .blockEntry || t == .blockEnd) fuel .block r.drop
      let (items, r) ← blockItems handles fuel r
      return (item :: items, r)
    | .blockEnd => return ([], r.drop)
    | _ => .error .malformed

/-- Reads the items of a sequence without indentation of its own. --/
def looseItems (handles : Handles) : Nat → Reader → Except Fault (List Tree × Reader)
  | 0, _ => .error .malformed
  | fuel + 1, r => do
    match ← r.peek with
    | .blockEntry =>
      let (item, r) ← nodeUnless handles endsItem fuel .block r.drop
      let (items, r) ← looseItems handles fuel r
      return (item :: items, r)
    | _ => return ([], r)

/-- Reads the entries of a block mapping and its end. --/
def blockEntries (handles : Handles) : Nat → Reader → Except Fault (List (Tree × Tree) × Reader)
  | 0, _ => .error .malformed
  | fuel + 1, r => do
    match ← r.peek with
    | .key =>
      let (key, r) ← nodeUnless handles endsKey fuel .entry r.drop
      let (value, r) ← blockValue handles fuel r
      let (entries, r) ← blockEntries handles fuel r
      return ((key, value) :: entries, r)
    | .blockEnd => return ([], r.drop)
    | _ => .error .malformed

/-- Reads the value of an entry of a block mapping, which may be missing. --/
def blockValue (handles : Handles) : Nat → Reader → Except Fault (Tree × Reader)
  | 0, _ => .error .malformed
  | fuel + 1, r => do
    match ← r.peek with
    | .value => nodeUnless handles endsKey fuel .entry r.drop
    | _ => return (.empty, r)

/-- Reads the items of a flow sequence and its end. An item with a key is a mapping of one entry. --/
def flowItems (handles : Handles) : Nat → (first : Bool) → Reader → Except Fault (List Tree × Reader)
  | 0, _, _ => .error .malformed
  | fuel + 1, first, r => do
    match ← r.peek with
    | .flowSequenceEnd => return ([], r.drop)
    | t =>
      let r ← if first then pure r else if t == .flowEntry then pure r.drop else .error .malformed
      match ← r.peek with
      | .flowSequenceEnd => return ([], r.drop)
      | .key =>
        let (key, r) ←
          nodeUnless handles (fun t => t == .value || t == .flowEntry || t == .flowSequenceEnd) fuel .flow r.drop
        let (value, r) ← flowValue handles (fun t => t == .flowEntry || t == .flowSequenceEnd) fuel r
        let (items, r) ← flowItems handles fuel false r
        return (.map none .map [(key, value)] :: items, r)
      | _ =>
        let (item, r) ← node handles fuel .flow r
        let (items, r) ← flowItems handles fuel false r
        return (item :: items, r)

/-- Reads the entries of a flow mapping and its end. An entry without a key's mark has no value. --/
def flowEntries (handles : Handles) : Nat → (first : Bool) → Reader → Except Fault (List (Tree × Tree) × Reader)
  | 0, _, _ => .error .malformed
  | fuel + 1, first, r => do
    match ← r.peek with
    | .flowMappingEnd => return ([], r.drop)
    | t =>
      let r ← if first then pure r else if t == .flowEntry then pure r.drop else .error .malformed
      match ← r.peek with
      | .flowMappingEnd => return ([], r.drop)
      | .key =>
        let (key, r) ←
          nodeUnless handles (fun t => t == .value || t == .flowEntry || t == .flowMappingEnd) fuel .flow r.drop
        let (value, r) ← flowValue handles (fun t => t == .flowEntry || t == .flowMappingEnd) fuel r
        let (entries, r) ← flowEntries handles fuel false r
        return ((key, value) :: entries, r)
      | _ =>
        let (key, r) ← node handles fuel .flow r
        let _ ← r.peek
        let (entries, r) ← flowEntries handles fuel false r
        return ((key, .empty) :: entries, r)

/-- Reads the value of an entry of a flow collection, which may be missing. --/
def flowValue (handles : Handles) (ends : Token → Bool) : Nat → Reader → Except Fault (Tree × Reader)
  | 0, _ => .error .malformed
  | fuel + 1, r => do
    match ← r.peek with
    | .value => nodeUnless handles ends fuel .flow r.drop
    | _ => return (.empty, r)

end

/-- Directives in front of a document: whether a version was asked for, and the handles. --/
def directives : List Token → (versioned : Bool) → Handles → Except Fault (Handles × List Token)
  | .version major :: rest, versioned, handles =>
    if versioned || major ≠ 1 then .error .malformed else directives rest true handles
  | .handle name meaning :: rest, versioned, handles =>
    if (handles.lookup name).isSome then .error .malformed else directives rest versioned (handles ++ [(name, meaning)])
  | .otherDirective :: rest, versioned, handles => directives rest versioned handles
  | rest, _, handles => .ok (handles ++ Handles.standard, rest)

/-- Whether a document that is nothing ends before a token. --/
def endsContent : Token → Bool
  | .version _ | .handle .. | .otherDirective | .documentStart | .documentEnd | .streamEnd => true
  | _ => false

/-- Passes marks that end documents. --/
def passEnds (r : Reader) : Reader :=
  { r with tokens := r.tokens.dropWhile (· == .documentEnd) }

/-- Checks that nothing follows the document. --/
def finish (r : Reader) : Except Fault Unit := do
  let _ ← r.peek
  let r := r.passEnds
  match ← r.peek with
  | .streamEnd => return ()
  | _ =>
    let (_, tokens) ← directives r.tokens false []
    let _ ← { r with tokens }.peek
    .error .malformed

/-- Reads the single document of a text, if the text has one. --/
def document (r : Reader) : Except Fault (Option Tree) := do
  let fuel := 3 * r.tokens.length + 3
  match ← r.peek with
  | .streamEnd => return none
  | t =>
    let (tree, r) ←
      if t == .documentStart || (endsContent t && t != .documentEnd) then do
        let (handles, tokens) ← directives r.tokens false []
        let r := { r with tokens }
        match ← r.peek with
        | .documentStart => nodeUnless handles endsContent (fuel + 1) .block r.drop
        | _ => .error .malformed
      else node Handles.standard fuel .block r
    r.finish
    return some tree

end Reader

namespace Tree

/-- The tree of the single document that a row of tokens says, if it says one; after the tokens may come a fault. --/
def ofTokens (tokens : List Token) (fault : Option Fault) : Except Fault (Option Tree) :=
  Reader.document { tokens, fault }

end Tree

end Retag.Markup
