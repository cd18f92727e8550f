import Spellcast.Yaml.Token

/-!
# Nodes of YAML

The tree that a row of tokens makes. An alias is kept as the number of its anchor, and the anchored nodes lie
beside the tree, so that a node may also refer to one that it is a part of or that follows it. A fault stays in
the tree at the place where the text cannot be read on, so that a reader meets what the text says before it
first.

The number of an anchor is the number of names that were known before it, also when its own name is one of them.
So two anchors may have one number, and an alias means the node that begins last of those with its number.
-/

namespace Spellcast.Yaml

/-- A node of a YAML text, up to the first fault of the text. -/
inductive Node where
  | text (content : String) (style : Style) (tag : Option Tag)
  /-- The node with an anchor, by the number of the anchor. -/
  | alias (anchor : Nat)
  /-- The items of a list, and whether it is closed behind them. -/
  | list (items : List Node) (closed : Bool) (tag : Option Tag)
  /-- The entries of a map, and whether it is closed behind them. -/
  | map (entries : List (Node × Node)) (closed : Bool) (tag : Option Tag)
  /-- Here the text cannot be read on. -/
  | fault

instance : Inhabited Node := ⟨.fault⟩

namespace Node

def blank : Node := .text "" .plain none

/-- A node with an anchor: how many such nodes begin in front of it, the number of the anchor, and the node. -/
structure Anchored where
  place : Nat
  number : Nat
  node : Node

/-- Tokens that are still to be read, and what is known from those in front of them. -/
structure Source where
  tokens : List Token
  /-- What the handles of tags stand for. -/
  handles : List (String × List UInt8)
  /-- The names of anchors, each with the number of the last anchor of that name. -/
  names : List (String × Nat)
  /-- How many nodes with an anchor have begun. -/
  begun : Nat
  /-- The nodes with an anchor that have been read, the one that begins last first. -/
  anchored : List Anchored
  /-- The text could not be read on. -/
  broken : Bool

namespace Source

def ahead (source : Source) : Token := source.tokens.headD .fault

def skip (source : Source) : Source := { source with tokens := source.tokens.tail }

def fail (source : Source) : Source := { source with broken := true }

/-- Begins a node that has an anchor if there is a name for it. The result says how to keep the node when it has
been read. -/
def anchor (source : Source) : Option String → Option (Node → Anchored) × Source
  | none => (none, source)
  | some name =>
    let number := source.names.length
    (some fun node => ⟨source.begun, number, node⟩,
      { source with
        names := (name, number) :: source.names.filter (·.1 ≠ name)
        begun := source.begun + 1 })

/-- Keeps a node that has been read, if it has an anchor. The anchored nodes inside of it begin behind it. -/
def keep (source : Source) (anchor : Option (Node → Anchored)) (node : Node) : Node × Source :=
  match anchor with
  | none => (node, source)
  | some anchor =>
    let anchored := anchor node
    let inside := source.anchored.takeWhile (anchored.place < ·.place)
    (node, { source with anchored := inside ++ anchored :: source.anchored.drop inside.length })

/-- What a tag means, if its handle is known. -/
def resolve? (source : Source) (name : TagName) : Option Tag :=
  if name.handle = "" then some (.ofBytes name.suffix)
  else (source.handles.lookup name.handle).map fun start => .ofBytes (start ++ name.suffix)

end Source

/-- What stands in front of a node: the name of an anchor and a tag. -/
structure Properties where
  anchor : Option String
  tag : Option TagName

def readProperties (source : Source) : Properties × Source :=
  match source.tokens with
  | .anchor name :: .tag tag :: rest => (⟨some name, some tag⟩, { source with tokens := rest })
  | .tag tag :: .anchor name :: rest => (⟨some name, some tag⟩, { source with tokens := rest })
  | .anchor name :: rest => (⟨some name, none⟩, { source with tokens := rest })
  | .tag tag :: rest => (⟨none, some tag⟩, { source with tokens := rest })
  | _ => (⟨none, none⟩, source)

/-- How the items of a list or the entries of a map go on: there is another one, it ends here, or the text is
wrong. -/
inductive Going where
  | on (source : Source)
  | over (source : Source)
  | wrong

/-- How a list in brackets goes on behind its first item. -/
def goingOn (close : Token) (first : Bool) (source : Source) : Going :=
  if source.ahead = close then .over source.skip
  else if first then .on source
  else if source.ahead = .flowEntry then
    if source.skip.ahead = close then .over source.skip.skip else .on source.skip
  else .wrong

mutual

/-- Reads a node. In a block it may be a block itself, and behind a key its items may stand as far out as the
key. The first argument bounds the number of tokens. -/
def readNode (block hanging : Bool) : Nat → Source → Node × Source
  | 0, source => (.fault, source.fail)
  | bound + 1, source =>
    match source.ahead with
    | .alias name =>
      match source.names.lookup name with
      | some number => (.alias number, source.skip)
      | none => (.fault, source.fail)
    | _ =>
      let (properties, source) := readProperties source
      let tag := properties.tag.map source.resolve?
      if tag = some none then (.fault, source.fail)
      else
        let tag := tag.join
        match source.ahead with
        | .text content style =>
          let (anchor, source) := source.anchor properties.anchor
          source.skip.keep anchor (.text content style tag)
        | .flowSequenceStart =>
          let (anchor, source) := source.anchor properties.anchor
          let (items, source) := readFlowItems true bound source.skip
          source.keep anchor (.list items (!source.broken) tag)
        | .flowMappingStart =>
          let (anchor, source) := source.anchor properties.anchor
          let (entries, source) := readFlowEntries true bound source.skip
          source.keep anchor (.map entries (!source.broken) tag)
        | token =>
          if token = .blockEntry ∧ hanging then
            let (anchor, source) := source.anchor properties.anchor
            let (items, source) := readHangingItems bound source
            source.keep anchor (.list items (!source.broken) tag)
          else if token = .blockSequenceStart ∧ block then
            let (anchor, source) := source.anchor properties.anchor
            let (items, source) := readBlockItems bound source.skip
            source.keep anchor (.list items (!source.broken) tag)
          else if token = .blockMappingStart ∧ block then
            let (anchor, source) := source.anchor properties.anchor
            let (entries, source) := readBlockEntries bound source.skip
            source.keep anchor (.map entries (!source.broken) tag)
          else if token ≠ .fault ∧ (properties.anchor.isSome ∨ properties.tag.isSome) then
            let (anchor, source) := source.anchor properties.anchor
            source.keep anchor (.text "" .plain tag)
          else (.fault, source.fail)

/-- Reads a node unless one of some tokens shows that nothing is written. -/
def readUnless (block hanging : Bool) (tokens : List Token) : Nat → Source → Node × Source
  | 0, source => (.fault, source.fail)
  | bound + 1, source =>
    if tokens.contains source.ahead then (blank, source) else readNode block hanging bound source

def readBlockItems : Nat → Source → List Node × Source
  | 0, source => ([], source.fail)
  | bound + 1, source =>
    match source.ahead with
    | .blockEntry =>
      let (item, source) := readUnless true false [.blockEntry, .blockEnd] bound source.skip
      if source.broken then ([item], source)
      else
        let (items, source) := readBlockItems bound source
        (item :: items, source)
    | .blockEnd => ([], source.skip)
    | _ => ([], source.fail)

def readHangingItems : Nat → Source → List Node × Source
  | 0, source => ([], source.fail)
  | bound + 1, source =>
    match source.ahead with
    | .blockEntry =>
      let (item, source) := readUnless true false [.blockEntry, .key, .value, .blockEnd] bound source.skip
      if source.broken then ([item], source)
      else
        let (items, source) := readHangingItems bound source
        (item :: items, source)
    | .fault => ([], source.fail)
    | _ => ([], source)

def readBlockValue : Nat → Source → Node × Source
  | 0, source => (.fault, source.fail)
  | bound + 1, source =>
    match source.ahead with
    | .value => readUnless true true [.key, .value, .blockEnd] bound source.skip
    | .fault => (.fault, source.fail)
    | _ => (blank, source)

def readBlockEntries : Nat → Source → List (Node × Node) × Source
  | 0, source => ([], source.fail)
  | bound + 1, source =>
    match source.ahead with
    | .key =>
      let (key, source) := readUnless true true [.key, .value, .blockEnd] bound source.skip
      if source.broken then ([(key, .fault)], source)
      else
        let (value, source) := readBlockValue bound source
        if source.broken then ([(key, value)], source)
        else
          let (entries, source) := readBlockEntries bound source
          ((key, value) :: entries, source)
    | .blockEnd => ([], source.skip)
    | _ => ([], source.fail)

def readFlowItems (first : Bool) : Nat → Source → List Node × Source
  | 0, source => ([], source.fail)
  | bound + 1, source =>
    match goingOn .flowSequenceEnd first source with
    | .wrong => ([], source.fail)
    | .over source => ([], source)
    | .on source =>
      let (item, source) :=
        if source.ahead = .key then readPair bound source.skip else readNode false false bound source
      if source.broken then ([item], source)
      else
        let (items, source) := readFlowItems false bound source
        (item :: items, source)

/-- Reads a single entry that stands as an item in brackets. Where no key is written, a token is lost. -/
def readPair : Nat → Source → Node × Source
  | 0, source => (.fault, source.fail)
  | bound + 1, source =>
    let (key, source) :=
      if [Token.value, .flowEntry, .flowSequenceEnd].contains source.ahead then (blank, source.skip)
      else readNode false false bound source
    if source.broken then (.map [(key, .fault)] false none, source)
    else
      let (value, source) :=
        match source.ahead with
        | .value => readUnless false false [.flowEntry, .flowSequenceEnd] bound source.skip
        | .fault => (.fault, source.fail)
        | _ => (blank, source)
      (.map [(key, value)] (!source.broken) none, source)

def readFlowValue : Nat → Source → Node × Source
  | 0, source => (.fault, source.fail)
  | bound + 1, source =>
    match source.ahead with
    | .value => readUnless false false [.flowEntry, .flowMappingEnd] bound source.skip
    | .fault => (.fault, source.fail)
    | _ => (blank, source)

def readFlowEntries (first : Bool) : Nat → Source → List (Node × Node) × Source
  | 0, source => ([], source.fail)
  | bound + 1, source =>
    match goingOn .flowMappingEnd first source with
    | .wrong => ([], source.fail)
    | .over source => ([], source)
    | .on source =>
      let keyed := source.ahead = .key
      let (key, source) :=
        if keyed then readUnless false false [.value, .flowEntry, .flowMappingEnd] bound source.skip
        else readNode false false bound source
      if source.broken then ([(key, .fault)], source)
      else
        let (value, source) :=
          if keyed then readFlowValue bound source
          else if source.ahead = .fault then (.fault, source.fail)
          else (blank, source)
        if source.broken then ([(key, value)], source)
        else
          let (entries, source) := readFlowEntries false bound source
          ((key, value) :: entries, source)

end

end Node

mutual

/-- How many marks a node makes: one for a text or an alias, and one for the beginning and the end of a
container. -/
def Node.marks : Node → Nat
  | .text .. => 1
  | .alias _ => 1
  | .list items closed _ => 1 + itemMarks items + closed.toNat
  | .map entries closed _ => 1 + entryMarks entries + closed.toNat
  | .fault => 0

def Node.itemMarks : List Node → Nat
  | [] => 0
  | item :: rest => item.marks + itemMarks rest

def Node.entryMarks : List (Node × Node) → Nat
  | [] => 0
  | (key, value) :: rest => key.marks + value.marks + entryMarks rest

end

/-- The only document of a text: its root, the anchored nodes by number and the one that begins last first, how
many aliases may be followed to read it, and whether nothing is wrong behind it. -/
structure Document where
  root : Node
  anchored : List (Nat × Node)
  reach : Nat
  complete : Bool

namespace Document

/-- What the handles of tags stand for unless a directive says otherwise. -/
def defaultHandles : List (String × List UInt8) := [("!", Tag.bytesOf "!"), ("!!", Tag.standard)]

/-- The directives in front of a document: whether a version has been given, and what handles stand for. -/
structure Heading where
  versioned : Bool
  handles : List (String × List UInt8)

/-- Adds a directive. A version and a handle are given once, and only two versions are known. -/
def Heading.add? (heading : Heading) : Directive → Option Heading
  | .version major minor =>
    if heading.versioned ∨ major ≠ 1 ∨ (minor ≠ 1 ∧ minor ≠ 2) then none
    else some { heading with versioned := true }
  | .tag handle start =>
    if (heading.handles.lookup handle).isSome then none
    else some { heading with handles := (handle, start) :: heading.handles }

def readDirectives? : Heading → List Token → Option (Heading × List Token)
  | heading, .directive directive :: rest =>
    match heading.add? directive with
    | some heading => readDirectives? heading rest
    | none => none
  | heading, rest => some (heading, rest)

/-- Nothing stands behind a document but ends of documents. -/
def isOver (tokens : List Token) : Bool :=
  tokens.dropWhile (· == .documentEnd) == [.streamEnd]

/-- How many aliases may be followed for every mark in a document. -/
def aliasesPerMark : Nat := 100

def ofRoot (root : Node) (anchored : List Node.Anchored) (complete : Bool) : Document :=
  ⟨root, anchored.map fun anchored => (anchored.number, anchored.node), aliasesPerMark * root.marks, complete⟩

def ofNode (handles : List (String × List UInt8)) (tokens : List Token) : Document :=
  let source : Node.Source :=
    { tokens, handles := handles ++ defaultHandles, names := [], begun := 0, anchored := [], broken := false }
  let (root, source) := Node.readNode true false (3 * tokens.length + 3) source
  ofRoot root source.anchored (!source.broken && isOver source.tokens)

def broken : Document := ofRoot .fault [] false

/-- A document with nothing written in it, in front of some tokens. -/
def blank (tokens : List Token) : Document := ofRoot .blank [] (isOver tokens)

def ofTokens (tokens : List Token) : Document :=
  match tokens with
  | [.streamEnd] => blank tokens
  | .directive _ :: _ | .documentStart :: _ =>
    match readDirectives? ⟨false, []⟩ tokens with
    | some (heading, .documentStart :: rest) =>
      match rest with
      | .directive _ :: _ | .documentStart :: _ | .documentEnd :: _ | .streamEnd :: _ => blank rest
      | _ => ofNode heading.handles rest
    | _ => broken
  | _ => ofNode [] tokens

def ofText (text : String) : Document := ofTokens (Token.ofText text)

end Document

end Spellcast.Yaml
