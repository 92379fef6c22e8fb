import SafeAlter.Toml.Quoted

/-! # Documents of TOML

A document is a row of statements, each a key with its value or the header of a table. The keys of
a statement are added to the table that the last header opened. A name can be given only once: a
table may grow by dotted keys only where dotted keys made it, may be opened only once by a header,
and an array or a table that is written as a value does not grow at all.
-/
namespace SafeAlter.Toml

/-- How a table came to be. -/
inductive Origin where
  /-- A header of its own. -/
  | header
  /-- The header of a table below it. -/
  | passed
  | dottedKey
  deriving DecidableEq

inductive Node where
  | scalar (value : Scalar)
  /-- An array or a table written as a value; what it holds is looked at by nobody. -/
  | closed
  | table (origin : Origin) (entries : List (String × Node))
  /-- The tables that headers in double brackets opened under one name, the last one first. -/
  | tables (last : List (String × Node)) (earlier : Nat)

abbrev Entries := List (String × Node)

structure Path where
  above : List String
  name : String

def Entries.set (name : String) (node : Node) : Entries → Entries
  | [] => [(name, node)]
  | e :: es => if e.1 = name then (name, node) :: es else e :: Entries.set name node es

/-- Changes the table at the end of a row of names, making tables on the way as needed. -/
def descend (dotted : Bool) (change : Origin → Entries → Option Entries) :
    List String → Origin → Entries → Option Entries
  | [], origin, es => change origin es
  | n :: names, _, es =>
    match es.lookup n with
    | none =>
      let origin := if dotted then .dottedKey else .passed
      (descend dotted change names origin []).map fun made => es.set n (.table origin made)
    | some (.table origin inner) =>
      if dotted && origin == .header then none
      else (descend dotted change names origin inner).map fun made =>
        es.set n (.table origin made)
    | some (.tables last earlier) =>
      (descend dotted change names .header last).map fun made => es.set n (.tables made earlier)
    | some _ => none

def define (p : Path) (node : Node) (es : Entries) : Option Entries :=
  descend true (fun origin es =>
    if (origin == .dottedKey) == p.above.isEmpty || (es.lookup p.name).isSome then none
    else some (es ++ [(p.name, node)])) p.above .header es

def openTable (p : Path) (es : Entries) : Option Entries :=
  descend false (fun _ es =>
    match es.lookup p.name with
    | none => some (es ++ [(p.name, .table .header [])])
    | some (.table .passed inner) => some (es.set p.name (.table .header inner))
    | some _ => none) p.above .header es

def openNext (p : Path) (es : Entries) : Option Entries :=
  descend false (fun _ es =>
    match es.lookup p.name with
    | none => some (es ++ [(p.name, .tables [] 0)])
    | some (.tables _ earlier) => some (es.set p.name (.tables [] (earlier + 1)))
    | some _ => none) p.above .header es

def defineIn (header : List String) (p : Path) (node : Node) (es : Entries) : Option Entries :=
  descend false (fun _ inner => define p node inner) header .header es

/-! ## Reading -/

def skipSpace (s : List Char) : List Char := s.dropWhile isSpace

/-- The text after a comment, if one stands in front of it: from the end of its line. -/
def skipComment? : List Char → Option (List Char)
  | '#' :: s =>
    let rest := s.dropWhile isAllowed
    if rest.isEmpty || (afterNewline? rest).isSome then some rest else none
  | s => some s

def skipLines? : Nat → List Char → Option (List Char)
  | 0, _ => none
  | fuel + 1, s => do
    let rest ← skipComment? (skipSpace s)
    match afterNewline? rest with
    | some rest => skipLines? fuel rest
    | none => some rest

def isBareKey (c : Char) : Bool :=
  c.isAlphanum || c == '_' || c == '-'

def simpleKey? : List Char → Option (String × List Char)
  | [] => none
  | c :: s =>
    if c = '\x22' then (basic? (s.length + 1) s).map fun p => (String.ofList p.1, p.2)
    else if c = '\x27' then (literal? s).map fun p => (String.ofList p.1, p.2)
    else
      let name := (c :: s).takeWhile isBareKey
      if name.isEmpty then none else some (String.ofList name, (c :: s).dropWhile isBareKey)

/-- How many names a key may have. -/
def keyLimit : Nat := 80

/-- A key: at most so many names, with periods between them. -/
def key? : Nat → List Char → Option (Path × List Char)
  | 0, _ => none
  | limit + 1, s => do
    let (name, rest) ← simpleKey? (skipSpace s)
    match skipSpace rest with
    | '.' :: rest =>
      let (path, rest) ← key? limit rest
      some (⟨name :: path.above, path.name⟩, rest)
    | rest => some (⟨[], name⟩, rest)

def isScalarCharacter (c : Char) : Bool :=
  c.isAlphanum || ['_', '+', '-', '.', ':'].contains c

/-- An unquoted scalar; a date takes a time along that stands behind one blank. -/
def unquoted? (s : List Char) : Option (Scalar × List Char) :=
  let text := s.takeWhile isScalarCharacter
  let rest := s.dropWhile isScalarCharacter
  let (text, rest) :=
    match afterDate? text, rest with
    | some [], ' ' :: d :: t =>
      if d.isDigit then
        (text ++ ' ' :: (d :: t).takeWhile isScalarCharacter, (d :: t).dropWhile isScalarCharacter)
      else (text, rest)
    | _, _ => (text, rest)
  (scalar? text).map (·, rest)

/-- How deep arrays and tables may stand in one another. -/
def depthLimit : Nat := 80

/-- A key within a table written as a value, up to the value that it is given. There may be line
ends on either side of the equals sign. -/
def pairKey? (s : List Char) : Option (Path × List Char) := do
  let (path, rest) ← key? keyLimit s
  match ← skipLines? (rest.length + 1) rest with
  | '=' :: rest => some (path, ← skipLines? (rest.length + 1) rest)
  | _ => none

mutual

def value? (depth fuel : Nat) (s : List Char) : Option (Node × List Char) :=
  match fuel, s with
  | 0, _ | _, [] => none
  | fuel + 1, c :: t =>
    if c = '\x22' || c = '\x27' then
      (string? c t).map fun p => (.scalar (.string (String.ofList p.1)), p.2)
    else if c = '[' then
      if depth = 0 then none else (items? (depth - 1) fuel t).map (.closed, ·)
    else if c = '\x7b' then
      if depth = 0 then none else (pairs? (depth - 1) fuel t []).map (.closed, ·)
    else (unquoted? (c :: t)).map fun p => (.scalar p.1, p.2)

/-- The items of an array, up to and with its closing bracket. -/
def items? (depth fuel : Nat) (s : List Char) : Option (List Char) :=
  match fuel with
  | 0 => none
  | fuel + 1 =>
    match skipLines? (s.length + 1) s with
    | none => none
    | some (']' :: rest) => some rest
    | some rest =>
      match value? depth fuel rest with
      | none => none
      | some (_, rest) =>
        match skipLines? (rest.length + 1) rest with
        | some (',' :: rest) => items? depth fuel rest
        | some (']' :: rest) => some rest
        | _ => none

/-- The keys and values of a table written as a value, up to and with its closing brace. -/
def pairs? (depth fuel : Nat) (s : List Char) (es : Entries) : Option (List Char) :=
  match fuel with
  | 0 => none
  | fuel + 1 =>
    match skipLines? (s.length + 1) s with
    | none => none
    | some ('\x7d' :: rest) => some rest
    | some rest =>
      match pairKey? rest with
      | none => none
      | some (path, rest) =>
        match value? depth fuel rest with
        | none => none
        | some (node, rest) =>
          match define path node es with
          | none => none
          | some es =>
            match skipLines? (rest.length + 1) rest with
            | some (',' :: rest) => pairs? depth fuel rest es
            | some ('\x7d' :: rest) => some rest
            | _ => none

end

/-- The text of the next line, once the present one has nothing left but a comment. -/
def nextLine? (s : List Char) : Option (List Char) := do
  let rest ← skipComment? (skipSpace s)
  if rest.isEmpty then some [] else afterNewline? rest

/-- What is read so far: all entries, and the header of the table that is open. -/
structure Reading where
  entries : Entries
  header : List String

/-- Reads one statement, or an empty line, and the end of its line. -/
def statement? (r : Reading) (s : List Char) : Option (Reading × List Char) :=
  match skipSpace s with
  | '[' :: '[' :: t => do
    let (p, rest) ← key? keyLimit t
    match rest with
    | ']' :: ']' :: rest =>
      some (⟨← openNext p r.entries, p.above ++ [p.name]⟩, ← nextLine? rest)
    | _ => none
  | '[' :: t => do
    let (p, rest) ← key? keyLimit t
    match rest with
    | ']' :: rest => some (⟨← openTable p r.entries, p.above ++ [p.name]⟩, ← nextLine? rest)
    | _ => none
  | t =>
    if t.isEmpty || (afterNewline? t).isSome || t.head? == some '#' then
      (nextLine? t).map (r, ·)
    else do
      let (p, rest) ← key? keyLimit t
      match rest with
      | '=' :: rest =>
        let (node, rest) ← value? depthLimit (2 * rest.length + 2) (skipSpace rest)
        some (⟨← defineIn r.header p node r.entries, r.header⟩, ← nextLine? rest)
      | _ => none

def statements? : Nat → Reading → List Char → Option Entries
  | 0, _, _ => none
  | _, r, [] => some r.entries
  | fuel + 1, r, s => do
    let (r, rest) ← statement? r s
    statements? fuel r rest

/-- The entries of a document, which may start with a byte order mark. -/
def document? (s : List Char) : Option Entries :=
  let text := (['\uFEFF'].isPrefixOf? s).getD s
  statements? (text.length + 1) ⟨[], []⟩ text

end SafeAlter.Toml
