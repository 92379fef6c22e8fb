import SafeAlter.Toml.Scalar

/-! # Strings of TOML

A string stands in double quotes, where escapes are understood, or in single quotes, where they are
not; three quotes of either kind let it run over several lines. Control characters other than the
tab must be escaped. Each function here reads from just after the opening quotes.
-/
namespace SafeAlter.Toml

/-- Whether a character may stand in a string or a comment as it is. -/
def isAllowed (c : Char) : Bool :=
  c == '\t' || (0x20 ≤ c.toNat && c.toNat ≠ 0x7F)

/-- The character with a code point written in so many hexadecimal digits. -/
def codePoint? (count : Nat) (s : List Char) : Option (Char × List Char) :=
  let digits := s.take count
  let n := ofDigits 16 digits
  if digits.length = count && digits.all Sql.isHexDigit && n.isValidChar then
    some (Char.ofNat n, s.drop count)
  else none

/-- The character that an escape stands for, read from after the backslash. -/
def escape? : List Char → Option (Char × List Char)
  | [] => none
  | c :: s =>
    match c with
    | 'b' => some ('\x08', s)
    | 't' => some ('\t', s)
    | 'n' => some ('\n', s)
    | 'f' => some ('\x0c', s)
    | 'r' => some ('\r', s)
    | 'e' => some ('\x1b', s)
    | '\x22' => some ('\x22', s)
    | '\\' => some ('\\', s)
    | 'x' => codePoint? 2 s
    | 'u' => codePoint? 4 s
    | 'U' => codePoint? 8 s
    | _ => none

def afterNewline? : List Char → Option (List Char)
  | '\n' :: s => some s
  | '\r' :: '\n' :: s => some s
  | _ => none

def isSpace (c : Char) : Bool := c == ' ' || c == '\t'

/-- The text from its first character that is neither blank nor part of a line end. A carriage
return without its line feed is no line end. -/
def skipBlankLines : List Char → List Char
  | '\r' :: '\n' :: s => skipBlankLines s
  | c :: s => if isSpace c || c == '\n' then skipBlankLines s else c :: s
  | [] => []

/-- What follows a backslash that ends a line, without the blank text in front of it. -/
def afterFolding? (s : List Char) : Option (List Char) :=
  (afterNewline? (s.dropWhile isSpace)).map skipBlankLines

def push (c : Char) (p : List Char × List Char) : List Char × List Char := (c :: p.1, p.2)

/-- A string on one line. -/
def basic? : Nat → List Char → Option (List Char × List Char)
  | 0, _ | _, [] => none
  | fuel + 1, c :: s =>
    if c = '\x22' then some ([], s)
    else if c = '\\' then
      match escape? s with
      | some (d, rest) => (basic? fuel rest).map (push d)
      | none => none
    else if isAllowed c then (basic? fuel s).map (push c)
    else none

/-- A string on one line without escapes. -/
def literal? : List Char → Option (List Char × List Char)
  | [] => none
  | c :: s =>
    if c = '\x27' then some ([], s)
    else if isAllowed c then (literal? s).map (push c)
    else none

/-- The end of a string over several lines: three quotes, with up to two more in front of them
that belong to the string. -/
def closing? (quote : Char) (s : List Char) : Option (List Char × List Char) :=
  let count := min 5 (s.takeWhile (· == quote)).length
  if 3 ≤ count then some (List.replicate (count - 3) quote, s.drop count) else none

/-- A string over several lines, with escapes if its quotes are double. -/
def multiline? (quote : Char) : Nat → List Char → Option (List Char × List Char)
  | 0, _ | _, [] => none
  | fuel + 1, c :: s =>
    match closing? quote (c :: s) with
    | some found => some found
    | none =>
      if c = '\\' && quote = '\x22' then
        match afterFolding? s with
        | some rest => multiline? quote fuel rest
        | none =>
          match escape? s with
          | some (d, rest) => (multiline? quote fuel rest).map (push d)
          | none => none
      else if c = '\r' then
        match s with
        | '\n' :: rest => (multiline? quote fuel rest).map fun p => push c (push '\n' p)
        | _ => none
      else if c = '\n' || isAllowed c then (multiline? quote fuel s).map (push c)
      else none

def string? (quote : Char) (s : List Char) : Option (List Char × List Char) :=
  match s with
  | a :: b :: rest =>
    if a = quote && b = quote then
      let body := (afterNewline? rest).getD rest
      multiline? quote (body.length + 1) body
    else if quote = '\x22' then basic? (s.length + 1) s
    else literal? s
  | _ => if quote = '\x22' then basic? (s.length + 1) s else literal? s

end SafeAlter.Toml
