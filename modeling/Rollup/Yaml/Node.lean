import Rollup.Yaml.Token

/-!
# Nodes of YAML text

A document is a tree of scalars, sequences and mappings. `Node.ofTokens?` builds it from the tokens
of a text: an absent node is an empty plain scalar, and a reference stands for the node of that name
before it. Each function that reads a part takes tokens and answers with the part and the tokens
behind it.
-/

namespace Rollup.Yaml

/-- A node of a document. -/
inductive Node where
  /-- A scalar, and whether it is plain. -/
  | scalar (text : String) (plain : Bool)
  /-- Nodes in order. -/
  | sequence (items : List Node)
  /-- Pairs of a key and a value. -/
  | mapping (entries : List (Node × Node))

namespace Node

/-- The node that stands for an absent one. -/
def absent : Node := scalar "" true

mutual

/-- How deeply sequences and mappings are nested. -/
def depth : Node → Nat
  | scalar _ _ => 0
  | sequence items => depthOfItems items + 1
  | mapping entries => depthOfEntries entries + 1

/-- The greatest depth of some items. -/
def depthOfItems : List Node → Nat
  | [] => 0
  | item :: items => max item.depth (depthOfItems items)

/-- The greatest depth of the keys and values of some entries. -/
def depthOfEntries : List (Node × Node) → Nat
  | [] => 0
  | (key, value) :: entries => max (max key.depth value.depth) (depthOfEntries entries)

end

end Node

/-- A node that is being read, with what counts towards the limit on references. -/
structure Part where
  /-- The node. -/
  node : Node
  /-- How many references are followed when the node is walked through. -/
  references : Nat := 0

/-- What is known while a document is read. -/
structure Names where
  /-- The named nodes, the last one first. -/
  named : List (String × Part) := []
  /-- How many events the document has: a scalar or a reference is one, a collection two. -/
  events : Nat := 0

/-- Reading a part of a document. -/
abbrev NodeReader (α : Type) := Names → List Token → Option (α × Names × List Token)

/-- Counts some events. -/
def Names.count (names : Names) (events : Nat) : Names :=
  { names with events := names.events + events }

/-- Gives a node its name, if it has one. -/
def Names.define (names : Names) (anchor : Option String) (part : Part) : Names :=
  match anchor with
  | none => names
  | some name => { names with named := (name, part) :: names.named }

/-- The sequence of some parts. -/
def Part.sequence (parts : List Part) : Part where
  node := .sequence (parts.map Part.node)
  references := (parts.map Part.references).foldr (· + ·) 0

/-- The mapping of some pairs of parts. -/
def Part.mapping (parts : List (Part × Part)) : Part where
  node := .mapping (parts.map fun (key, value) => (key.node, value.node))
  references := (parts.map fun (key, value) => key.references + value.references).foldr (· + ·) 0

/-- An absent node, which counts as an event. -/
def readAbsent : NodeReader Part := fun names tokens =>
  some ({ node := .absent }, names.count 1, tokens)

/-- The name before a node, if there is one. -/
def readAnchor : List Token → Option String × List Token
  | .anchor name :: rest => (some name, rest)
  | rest => (none, rest)

/-- Whether the next token is one of the given ones, or there is none. -/
def nextIsOneOf (stops : List Token) : List Token → Bool
  | [] => true
  | token :: _ => stops.contains token

mutual

/-- Reads a node: in a block it may be a block collection, and after a key also a sequence whose
items are not indented. -/
def readNode (fuel : Nat) (inBlock unindented : Bool) : NodeReader Part := fun names tokens =>
  match fuel with
  | 0 => none
  | fuel + 1 =>
    match tokens with
    | .alias name :: rest => do
      let part ← names.named.lookup name
      return ({ part with references := part.references + 1 }, names.count 1, rest)
    | _ =>
      let (anchor, tokens) := readAnchor tokens
      let collection := fun (found : Option (Part × Names × List Token)) => do
        let (part, names, rest) ← found
        return (part, (names.count 2).define anchor part, rest)
      match tokens with
      | .scalar text plain :: rest =>
        let part : Part := { node := .scalar text plain }
        some (part, (names.count 1).define anchor part, rest)
      | .openBracket :: rest =>
        collection <| (readFlowItems fuel true names rest).map fun (parts, found) =>
          (.sequence parts, found)
      | .openBrace :: rest =>
        collection <| (readFlowEntries fuel true names rest).map fun (parts, found) =>
          (.mapping parts, found)
      | .entry :: _ =>
        if unindented then
          collection <| (readItems fuel false names tokens).map fun (parts, found) =>
            (.sequence parts, found)
        else if anchor.isSome then
          let part : Part := { node := .absent }
          some (part, (names.count 1).define anchor part, tokens)
        else none
      | .blockSequence :: rest =>
        if inBlock then
          collection <| (readItems fuel true names rest).map fun (parts, found) =>
            (.sequence parts, found)
        else none
      | .blockMapping :: rest =>
        if inBlock then
          collection <| (readEntries fuel names rest).map fun (parts, found) =>
            (.mapping parts, found)
        else none
      | _ =>
        if anchor.isSome then
          let part : Part := { node := .absent }
          some (part, (names.count 1).define anchor part, tokens)
        else none

/-- Reads the items of a block sequence, up to the token of its end if it has one. -/
def readItems (fuel : Nat) (indented : Bool) : NodeReader (List Part) := fun names tokens =>
  match fuel with
  | 0 => none
  | fuel + 1 =>
    match tokens with
    | .entry :: rest => do
      let stops := if indented then [.entry, .blockEnd] else [.entry, .key, .value, .blockEnd]
      let (item, names, rest) ←
        if nextIsOneOf stops rest then readAbsent names rest
        else readNode fuel true false names rest
      let (items, names, rest) ← readItems fuel indented names rest
      return (item :: items, names, rest)
    | .blockEnd :: rest => some ([], names, if indented then rest else tokens)
    | _ => if indented then none else some ([], names, tokens)

/-- Reads the entries of a block mapping and the token of its end. -/
def readEntries (fuel : Nat) : NodeReader (List (Part × Part)) := fun names tokens =>
  match fuel with
  | 0 => none
  | fuel + 1 =>
    match tokens with
    | .blockEnd :: rest => some ([], names, rest)
    | .key :: rest => do
      let stops := [.key, .value, .blockEnd]
      let (key, names, rest) ←
        if nextIsOneOf stops rest then readAbsent names rest
        else readNode fuel true true names rest
      let (value, names, rest) ←
        match rest with
        | .value :: rest =>
          if nextIsOneOf stops rest then readAbsent names rest
          else readNode fuel true true names rest
        | rest => readAbsent names rest
      let (entries, names, rest) ← readEntries fuel names rest
      return ((key, value) :: entries, names, rest)
    | _ => none

/-- Reads the items of a sequence in brackets and the closing one. An item with a key is a mapping
of one entry. -/
def readFlowItems (fuel : Nat) (first : Bool) : NodeReader (List Part) := fun names tokens =>
  match fuel with
  | 0 => none
  | fuel + 1 => do
    let tokens ←
      match tokens, first with
      | .closeBracket :: _, _ => some tokens
      | .comma :: rest, false => some rest
      | _, true => some tokens
      | _, false => none
    match tokens with
    | .closeBracket :: rest => return ([], names, rest)
    | .key :: rest =>
      let (key, names, rest) ← readNode fuel false false names rest
      let (value, names, rest) ←
        match rest with
        | .value :: rest =>
          if nextIsOneOf [.comma, .closeBracket] rest then readAbsent names rest
          else readNode fuel false false names rest
        | rest => readAbsent names rest
      let (items, names, rest) ← readFlowItems fuel false (names.count 2) rest
      return (.mapping [(key, value)] :: items, names, rest)
    | _ =>
      let (item, names, rest) ← readNode fuel false false names tokens
      let (items, names, rest) ← readFlowItems fuel false names rest
      return (item :: items, names, rest)

/-- Reads the entries of a mapping in braces and the closing one. -/
def readFlowEntries (fuel : Nat) (first : Bool) : NodeReader (List (Part × Part)) :=
    fun names tokens =>
  match fuel with
  | 0 => none
  | fuel + 1 => do
    let tokens ←
      match tokens, first with
      | .closeBrace :: _, _ => some tokens
      | .comma :: rest, false => some rest
      | _, true => some tokens
      | _, false => none
    match tokens with
    | .closeBrace :: rest => return ([], names, rest)
    | .key :: rest =>
      let (key, names, rest) ←
        if nextIsOneOf [.value, .comma, .closeBrace] rest then readAbsent names rest
        else readNode fuel false false names rest
      let (value, names, rest) ←
        match rest with
        | .value :: rest =>
          if nextIsOneOf [.comma, .closeBrace] rest then readAbsent names rest
          else readNode fuel false false names rest
        | rest => readAbsent names rest
      let (entries, names, rest) ← readFlowEntries fuel false names rest
      return ((key, value) :: entries, names, rest)
    | _ =>
      let (key, names, rest) ← readNode fuel false false names tokens
      let (value, names, rest) ← readAbsent names rest
      let (entries, names, rest) ← readFlowEntries fuel false names rest
      return ((key, value) :: entries, names, rest)

end

/-- The tokens behind the start of a document; a directive must be the only one and be followed by
such a start. -/
def skipDocumentStart? : List Token → Option (List Token)
  | .documentStart :: rest | .directive :: .documentStart :: rest => some rest
  | .directive :: _ => none
  | rest => some rest

/-- Only ends of documents are left. -/
def onlyEnds (tokens : List Token) : Bool :=
  tokens.all (· == .documentEnd)

/-- The deepest nesting of collections that is read. -/
def maxDepth : Nat := 128

/-- How many references may be followed for each event of a document. -/
def maxReferences : Nat := 100

/-- The node of the one document of a text; without a document it is absent. -/
def Node.ofTokens? (tokens : List Token) : Option Node :=
  if tokens.isEmpty then some .absent
  else do
    let rest ← skipDocumentStart? tokens
    let started := rest.length < tokens.length
    let (part, names, rest) ←
      if started && nextIsOneOf [.directive, .documentStart, .documentEnd] rest then
        readAbsent {} rest
      else readNode (2 * rest.length + 2) true false {} rest
    let fits := part.node.depth ≤ maxDepth && part.references ≤ maxReferences * names.events
    if onlyEnds rest && fits then return part.node else none

/-- The node of the one document that a text holds. -/
def Node.ofText? (text : String) : Option Node := do
  Node.ofTokens? (← tokens? text.toList)

end Rollup.Yaml
