import FrameScript.Dict
import FrameScript.Document.Decoder
import FrameScript.Source.Decode
import FrameScript.Yaml.Leaf
import FrameScript.Yaml.Token

set_option autoImplicit false

/-!
# Reading YAML text

How tokens make up the nodes of a document. A node with a name is numbered where its name stands;
where the name is used again, a reference to that number stands for the node, also inside of it.

## Main definitions

* `YamlNodes` — the tokens ahead and the nodes that have been given names.
* `YamlNodes.readNode` — nodes.
* `LinkedDocument.ofYamlText?` — the document of a text.
* `Source.ofYamlText?` — the program source a text describes.

## Implementation notes

The readers run on fuel. Of two calls inside each other at least one passes over a token, so twice
the number of tokens always suffices.
-/

namespace FrameScript

/-- The tokens ahead and the nodes that have been given names. -/
structure YamlNodes where
  /-- The tokens from here on. -/
  tokens : List YamlToken
  /-- The numbers of the nodes that names stand for here. -/
  numbers : Dict Nat := []
  /-- The nodes with names, by their numbers. -/
  nodes : Array Document := #[]

/-- Computations that pass over tokens and may fail. -/
abbrev NodeReading : Type → Type := StateT YamlNodes Option

namespace YamlNodes

/-! ## Tokens -/

/-- The next token, if there is one. -/
def peek : NodeReading (Option YamlToken) := do
  return (← get).tokens.head?

/-- Passes over a token. -/
def drop : NodeReading Unit :=
  modify fun s => { s with tokens := s.tokens.tail }

/-- Whether the next token is a given one. -/
def isNext (t : YamlToken) : NodeReading Bool := do
  return (← peek) == some t

/-- Whether the next token is one of those given. -/
def isNextOf (ts : List YamlToken) : NodeReading Bool := do
  return ((← peek).map ts.contains).getD false

/-- Passes over a given token, which has to be there. -/
def expect (t : YamlToken) : NodeReading Unit := do
  guard (← isNext t)
  drop

/-- Passes over a given token, if it is there. -/
def skipIf (t : YamlToken) : NodeReading Bool := do
  let isThere ← isNext t
  if isThere then drop
  return isThere

/-! ## Properties -/

/-- The scalar that stands where nothing is written. -/
def nothing : Document :=
  .leaf (Leaf.ofYaml none false "~")

/-- The name and the tag of a node, as far as it has them. -/
structure Properties where
  /-- The number of the node, if it has a name. -/
  number? : Option Nat := none
  /-- The tag. -/
  tag? : Option YamlTag := none

/-- Numbers a node and gives it a name. -/
def number (name : String) : NodeReading Nat :=
  modifyGet fun s =>
    let n := s.nodes.size
    (n, { s with numbers := Dict.insert name n s.numbers, nodes := s.nodes.push nothing })

/-- Reads the name of a node, if there is one. -/
def readNumber? : NodeReading (Option Nat) := do
  match ← peek with
  | some (.anchor name) => do
    drop
    return some (← number name)
  | _ => return none

/-- Reads the tag of a node, if there is one. -/
def readTag? : NodeReading (Option YamlTag) := do
  match ← peek with
  | some (.tag t) => do
    drop
    return some t
  | _ => return none

/-- Reads a name and a tag in any order. -/
def readProperties : NodeReading Properties := do
  match ← readNumber? with
  | some n => return { number? := some n, tag? := ← readTag? }
  | none => do
    match ← readTag? with
    | some t => return { number? := ← readNumber?, tag? := some t }
    | none => return {}

/-- Stores a node under its number, if it has one. -/
def store (number? : Option Nat) (d : Document) : NodeReading Document := do
  match number? with
  | some n => modify fun s => { s with nodes := s.nodes.setIfInBounds n d }
  | none => pure ()
  return d

/-- The node that a name stands for. -/
def reference (name : String) : NodeReading Document := do
  return .reference (← Dict.find? name (← get).numbers)

/-! ## Nodes -/

/-- Reads a part of a list or a table by `read`, or nothing in front of certain tokens. -/
def orNothing (ends : List YamlToken) (read : NodeReading Document) : NodeReading Document := do
  if ← isNextOf ends then return nothing else read

/-- Passes over a comma behind an item or an entry between brackets or braces. In front of the first
there is none, and behind the last there may be one. The answer is whether the end was reached. -/
def skipComma (isFirst : Bool) (close : YamlToken) : NodeReading Bool := do
  if ← skipIf close then return true
  else do
    if !isFirst then expect .comma
    skipIf close

mutual

/-- Reads a node. In a block its own list or table may be a block, and where `beside` is set, a list
may stand in the column of the table around it. -/
def readNode (block beside : Bool) : Nat → NodeReading Document
  | 0 => failure
  | fuel + 1 => do
    match ← peek with
    | some (.reuse name) => do
      drop
      reference name
    | _ => do
      let props ← readProperties
      let t? ← peek
      match t? with
      | some (.scalar text isQuoted) => do
        drop
        store props.number? (.leaf (Leaf.ofYaml props.tag? isQuoted text))
      | some .openBracket => do
        drop
        store props.number? (.list (← readFlowItems fuel []))
      | some .openBrace => do
        drop
        store props.number? (.table (← readFlowEntries fuel []))
      | _ =>
        if t? == some .item && beside then
          store props.number? (.list (← readSideItems fuel []))
        else if t? == some .listStart && block then do
          drop
          store props.number? (.list (← readItems fuel []))
        else if t? == some .tableStart && block then do
          drop
          store props.number? (.table (← readEntries fuel []))
        else if props.number?.isSome || props.tag?.isSome then
          store props.number? (.leaf (Leaf.ofYaml props.tag? false ""))
        else failure
termination_by structural fuel => fuel

/-- Reads the items of a block up to its end, with those read so far in reverse order. -/
def readItems : Nat → List Document → NodeReading (List Document)
  | 0, _ => failure
  | fuel + 1, items => do
    if ← skipIf .blockEnd then return items.reverse
    else do
      expect .item
      let item ← orNothing [.item, .blockEnd] (readNode true false fuel)
      readItems fuel (item :: items)
termination_by structural fuel _ => fuel

/-- Reads the items of a list in the column of the table around it, with those read so far in
reverse order. -/
def readSideItems : Nat → List Document → NodeReading (List Document)
  | 0, _ => failure
  | fuel + 1, items => do
    if ← skipIf .item then do
      let item ← orNothing [.item, .key, .value, .blockEnd] (readNode true false fuel)
      readSideItems fuel (item :: items)
    else return items.reverse
termination_by structural fuel _ => fuel

/-- Reads the entries of a block up to its end, with those read so far in reverse order. -/
def readEntries : Nat → List (Document × Document) → NodeReading (List (Document × Document))
  | 0, _ => failure
  | fuel + 1, entries => do
    if ← skipIf .blockEnd then return entries.reverse
    else do
      let part := orNothing [.key, .value, .blockEnd] (readNode true true fuel)
      let key ← if ← skipIf .key then part
        else do
          guard (← isNext .value)
          pure nothing
      let value ← if ← skipIf .value then part else pure nothing
      readEntries fuel ((key, value) :: entries)
termination_by structural fuel _ => fuel

/-- Reads the items between brackets up to the closing one, with those read so far in reverse order.
An item may be an entry, which makes a table of its own. -/
def readFlowItems : Nat → List Document → NodeReading (List Document)
  | 0, _ => failure
  | fuel + 1, items => do
    if ← skipComma items.isEmpty .closeBracket then return items.reverse
    else do
      let item ← if ← skipIf .key then do
          let isKeyless ← isNextOf [.value, .comma, .closeBracket]
          if isKeyless then drop
          let key ← if isKeyless then pure nothing else readNode false false fuel
          let value ← if ← skipIf .value then
              orNothing [.comma, .closeBracket] (readNode false false fuel)
            else pure nothing
          pure (Document.table [(key, value)])
        else readNode false false fuel
      readFlowItems fuel (item :: items)
termination_by structural fuel _ => fuel

/-- Reads the entries between braces up to the closing one, with those read so far in reverse
order. -/
def readFlowEntries : Nat → List (Document × Document) →
    NodeReading (List (Document × Document))
  | 0, _ => failure
  | fuel + 1, entries => do
    if ← skipComma entries.isEmpty .closeBrace then return entries.reverse
    else do
      let value := do
        if ← skipIf .value then orNothing [.comma, .closeBrace] (readNode false false fuel)
        else return nothing
      let entry ← if ← skipIf .key then do
          let key ← orNothing [.value, .comma, .closeBrace] (readNode false false fuel)
          pure (key, ← value)
        else if ← isNext .value then pure (nothing, ← value)
        else pure (← readNode false false fuel, nothing)
      readFlowEntries fuel (entry :: entries)
termination_by structural fuel _ => fuel

end

/-! ## Documents -/

/-- Passes over directives. -/
def skipDirectives : NodeReading Unit :=
  modify fun s => { s with tokens := s.tokens.dropWhile (· == .directive) }

/-- Reads the only document of a text. Behind directives it starts with a mark. -/
def readDocument : NodeReading Document := do
  let fuel := 2 * (← get).tokens.length + 2
  let root ← if ← isNextOf [.directive, .documentStart] then do
      skipDirectives
      expect .documentStart
      let isEmpty := (← peek).isNone
      if isEmpty then pure nothing
      else orNothing [.directive, .documentStart, .documentEnd] (readNode true false fuel)
    else readNode true false fuel
  let s ← get
  guard (s.tokens.all (· == .documentEnd))
  return root

end YamlNodes

/-! ## Texts -/

namespace LinkedDocument

/-- How many references may be followed for each part of a document. -/
def jumpsPerPart : Nat := 100

/-- How many lists and tables of a document may be read inside each other. -/
def maxYamlNesting : Nat := 128

/-- The document of a text that holds just one. -/
def ofYamlText? (s : String) : Option LinkedDocument := do
  let (root, final) ← YamlNodes.readDocument.run { tokens := ← YamlToken.ofText? s }
  return {
    root
    targets := final.nodes
    maxJumps := jumpsPerPart * root.size
    maxNesting? := some maxYamlNesting }

end LinkedDocument

/-- The program source a YAML text describes. -/
def Source.ofYamlText? (s : String) : Option Source :=
  (LinkedDocument.ofYamlText? s).bind (·.decode? Source.decode)

end FrameScript
