import FrameScript.Toml.Quoted
import FrameScript.Toml.Scalar

set_option autoImplicit false

/-!
# Reading TOML text

A document is read line by line: headers choose the table that the following keys are put in.

## Main definitions

* `TomlText.readPath` — a dotted key.
* `TomlText.readValue` — a value, with arrays and tables between braces.
* `Toml.parse?` — the root table of a document.

## Implementation notes

The readers of values run on fuel. Each call passes over a character before or after it, so twice
the length of the text always suffices.
-/

namespace FrameScript

namespace TomlText

/-! ## Keys -/

/-- Passes over blanks. -/
def skipBlanks (cs : List Char) : List Char :=
  cs.dropWhile isBlank

/-- Whether a character may stand in a key without quotes. -/
def isKeyChar (c : Char) : Bool :=
  c.isAlphanum || c == '-' || c == '_'

/-- Reads a part of a dotted key. -/
def readKey : List Char → Option (String × List Char)
  | c :: cs =>
    if c == '"' || c == '\'' then readLine (c :: cs)
    else
      match (c :: cs).span isKeyChar with
      | ([], _) => none
      | (key, rest) => some (String.ofList key, rest)
  | [] => none

/-- Reads a dotted key of a limited number of parts, as those in front of the last dot and the one
behind it. -/
def readPathWithin : Nat → List Char → Option (List String × String × List Char)
  | 0, _ => none
  | parts + 1, cs =>
    match readKey cs with
    | none => none
    | some (key, rest) =>
      match skipBlanks rest with
      | '.' :: rest =>
        (readPathWithin parts (skipBlanks rest)).map fun (path, last, rest) =>
          (key :: path, last, rest)
      | rest => some ([], key, rest)

/-- How many parts a dotted key may have. -/
def maxKeyParts : Nat := 80

/-- Reads a dotted key. -/
def readPath (cs : List Char) : Option (List String × String × List Char) :=
  readPathWithin maxKeyParts cs

/-! ## White space -/

/-- Passes over a comment up to the end of its line. -/
def afterComment? : List Char → Option (List Char)
  | '#' :: cs =>
    let rest := cs.dropWhile isAllowed
    if rest.isEmpty || (afterLineEnd? rest).isSome then some rest else none
  | cs => some cs

/-- Passes over what may stand between the parts of an array or a table between braces: blanks, line
ends and comments. -/
def skipGap : Nat → List Char → Option (List Char)
  | 0, _ => none
  | fuel + 1, cs =>
    match skipSpace cs with
    | '#' :: cs => (afterComment? ('#' :: cs)).bind (skipGap fuel)
    | cs => some cs

/-- Passes over the rest of a line that holds nothing more. -/
def afterLine? (cs : List Char) : Option (List Char) :=
  match afterComment? (skipBlanks cs) with
  | none => none
  | some [] => some []
  | some cs => afterLineEnd? cs

/-! ## Values -/

/-- Whether a character may stand in a scalar without quotes. -/
def isScalarChar (c : Char) : Bool :=
  c.isAlphanum || c == '-' || c == '_' || c == '+' || c == '.' || c == ':'

/-- Splits off a scalar without quotes. A blank between a date and a time belongs to it. -/
def spanScalar (cs : List Char) : List Char × List Char :=
  let (first, rest) := cs.span isScalarChar
  match rest with
  | ' ' :: c :: rest' =>
    if c.isDigit && TomlScalar.afterDate? first == some [] then
      let (second, rest) := (c :: rest').span isScalarChar
      (first ++ ' ' :: second, rest)
    else (first, rest)
  | rest => (first, rest)

/-- How many arrays and tables between braces may lie inside each other. -/
def maxNesting : Nat := 80

mutual

/-- Reads a value; `room` more arrays and tables between braces may be entered. -/
def readValue : Nat → Nat → List Char → Option (Toml × List Char)
  | 0, _, _ => none
  | fuel + 1, room, '[' :: cs =>
    if room == 0 then none
    else (readItems fuel (room - 1) [] cs).map fun (items, rest) => (.array items, rest)
  | fuel + 1, room, '\x7b' :: cs =>
    if room == 0 then none else readMembers fuel (room - 1) (.table .braces []) cs
  | _ + 1, _, '"' :: cs => (read ('"' :: cs)).map fun (s, rest) => (.text s, rest)
  | _ + 1, _, '\'' :: cs => (read ('\'' :: cs)).map fun (s, rest) => (.text s, rest)
  | _ + 1, _, cs =>
    let (scalar, rest) := spanScalar cs
    (Toml.ofScalar? scalar).map fun v => (v, rest)

/-- Reads the items of an array up to its end, with those read so far in reverse order. -/
def readItems : Nat → Nat → List Toml → List Char → Option (List Toml × List Char)
  | 0, _, _, _ => none
  | fuel + 1, room, items, cs =>
    match skipGap (cs.length + 1) cs with
    | none => none
    | some (']' :: rest) => some (items.reverse, rest)
    | some cs =>
      match readValue fuel room cs with
      | none => none
      | some (item, cs) =>
        match skipGap (cs.length + 1) cs with
        | some (',' :: rest) => readItems fuel room (item :: items) rest
        | some (']' :: rest) => some ((item :: items).reverse, rest)
        | _ => none

/-- Reads the entries of a table between braces up to its end and adds them to those read so far. -/
def readMembers : Nat → Nat → Toml → List Char → Option (Toml × List Char)
  | 0, _, _, _ => none
  | fuel + 1, room, table, cs =>
    match skipGap (cs.length + 1) cs with
    | none => none
    | some ('\x7d' :: rest) => some (table, rest)
    | some cs => do
      let (path, key, cs) ← readPath cs
      let cs ← skipGap (cs.length + 1) cs
      guard (cs.head? == some '=')
      let cs ← skipGap (cs.length + 1) cs.tail
      let (value, cs) ← readValue fuel room cs
      let table ← table.assign? path key value
      match ← skipGap (cs.length + 1) cs with
      | ',' :: rest => readMembers fuel room table rest
      | '\x7d' :: rest => some (table, rest)
      | _ => none

end

/-! ## Lines -/

/-- A document that is read so far. -/
structure Progress where
  /-- The root table. -/
  root : Toml
  /-- The path to the table that the following keys are put in. -/
  current : List String

/-- Adds what a header describes. -/
def Progress.open? (p : Progress) (row : Bool) (path : List String) (key : String) :
    Option Progress :=
  let root? := if row then p.root.openRow? path key else p.root.openTable? path key
  root?.map fun root => { root, current := path ++ [key] }

/-- Puts a value under a dotted key. -/
def Progress.assign? (p : Progress) (path : List String) (key : String) (value : Toml) :
    Option Progress :=
  (p.root.within false (·.assign? path key value) p.current).map fun root => { p with root }

/-- Reads a header behind its first bracket. -/
def readHeader (p : Progress) (cs : List Char) : Option (Progress × List Char) :=
  let (row, cs) := match cs with
    | '[' :: cs => (true, cs)
    | cs => (false, cs)
  match readPath (skipBlanks cs), row with
  | some (path, key, ']' :: ']' :: rest), true => (p.open? true path key).map (·, rest)
  | some (path, key, ']' :: rest), false => (p.open? false path key).map (·, rest)
  | _, _ => none

/-- Reads a key with its value. -/
def readAssignment (p : Progress) (cs : List Char) : Option (Progress × List Char) :=
  match readPath cs with
  | some (path, key, '=' :: cs) =>
    match readValue (2 * cs.length + 2) maxNesting (skipBlanks cs) with
    | some (value, rest) => (p.assign? path key value).map (·, rest)
    | none => none
  | _ => none

/-- Reads lines up to the end of the text. -/
def readLines : Nat → Progress → List Char → Option Progress
  | 0, _, _ => none
  | fuel + 1, p, cs =>
    match skipSpace cs with
    | [] => some p
    | '#' :: cs => (afterComment? ('#' :: cs)).bind (readLines fuel p)
    | '[' :: cs => do
      let (p, rest) ← readHeader p cs
      readLines fuel p (← afterLine? rest)
    | cs => do
      let (p, rest) ← readAssignment p cs
      readLines fuel p (← afterLine? rest)

end TomlText

/-- The root table of a document. A byte order mark in front of the text is passed over. -/
def Toml.parse? (s : String) : Option Toml :=
  let cs := match s.toList with
    | '\uFEFF' :: cs => cs
    | cs => cs
  (TomlText.readLines (cs.length + 1) ⟨.table .header [], []⟩ cs).map (·.root)

end FrameScript
