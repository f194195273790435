import ThreadSoup.Toml.Scan

namespace ThreadSoup.Toml

/-- The character with a code point, if there is one. -/
def charOfCode (code : Nat) : Option Char :=
  if code.isValidChar then some (Char.ofNat code) else none

/-- A code point of exactly `width` hexadecimal digits. -/
def readCode (width : Nat) : Reader Char := fun s =>
  let digits := s.take width
  if digits.length = width ∧ digits.all isHexDigit then do
    return (← charOfCode (digitsValue 16 digits), s.drop width)
  else none

/-- The character that an escape stands for. The backslash has been read. -/
def readEscape : Reader Char
  | 'b' :: s => some ('\x08', s)
  | 't' :: s => some ('\t', s)
  | 'n' :: s => some ('\n', s)
  | 'f' :: s => some ('\x0c', s)
  | 'r' :: s => some ('\r', s)
  | '"' :: s => some ('"', s)
  | '\\' :: s => some ('\\', s)
  | 'u' :: s => readCode 4 s
  | 'U' :: s => readCode 8 s
  | _ => none

/-- The rest of a string in quotation marks, after the opening one. -/
def readBasic (s : List Char) : Option (List Char × List Char) :=
  match s with
  | [] => none
  | c :: after =>
    if c = '"' then some ([], after)
    else if c = '\\' then
      match readEscape after with
      | none => none
      | some (escaped, rest) =>
        if rest.length ≤ after.length then do
          let (chars, rest) ← readBasic rest
          return (escaped :: chars, rest)
        else none
    else if isText c then do
      let (chars, rest) ← readBasic after
      return (c :: chars, rest)
    else none
termination_by s.length

/-- The rest of a string in apostrophes, after the opening one. -/
def readLiteral : Reader (List Char)
  | [] => none
  | c :: s =>
    if c = '\'' then some ([], s)
    else if isText c then do
      let (chars, rest) ← readLiteral s
      return (c :: chars, rest)
    else none

/-- The end of a string in triple quotes. Up to two more quotes belong to the string. -/
def readClosing (quote : Char) (s : List Char) : Option (List Char × List Char) :=
  let count := (s.takeWhile (· == quote)).length
  if count < 3 then none
  else
    let extra := min (count - 3) 2
    some (List.replicate extra quote, s.drop (extra + 3))

/-- Skips a line end after a backslash, with the blanks and line ends that follow it. -/
def skipContinuation (s : List Char) : Option (List Char) :=
  match skipBlanks s with
  | '\n' :: rest => some (rest.dropWhile fun c => isBlank c || c == '\n')
  | _ => none

/-- The rest of a string in triple quotation marks. -/
def readMultilineBasic (s : List Char) : Option (List Char × List Char) :=
  match readClosing '"' s with
  | some closing => some closing
  | none =>
    match s with
    | [] => none
    | c :: after =>
      if c = '\\' then
        match readEscape after, skipContinuation after with
        | some (escaped, rest), _ =>
          if rest.length ≤ after.length then do
            let (chars, rest) ← readMultilineBasic rest
            return (escaped :: chars, rest)
          else none
        | none, some rest =>
          if rest.length ≤ after.length then readMultilineBasic rest else none
        | none, none => none
      else if c = '\n' ∨ isText c then do
        let (chars, rest) ← readMultilineBasic after
        return (c :: chars, rest)
      else none
termination_by s.length

/-- The rest of a string in triple apostrophes. -/
def readMultilineLiteral (s : List Char) : Option (List Char × List Char) :=
  match readClosing '\'' s with
  | some closing => some closing
  | none =>
    match s with
    | [] => none
    | c :: after =>
      if c = '\n' ∨ isText c then do
        let (chars, rest) ← readMultilineLiteral after
        return (c :: chars, rest)
      else none

/-- A line end right after the opening quotes is not part of the string. -/
def skipFirstNewline : List Char → List Char
  | '\n' :: s => s
  | s => s

/-- A string in any of the four kinds of quotes. -/
def readString : Reader (List Char)
  | '"' :: '"' :: '"' :: s => readMultilineBasic (skipFirstNewline s)
  | '"' :: s => readBasic s
  | '\'' :: '\'' :: '\'' :: s => readMultilineLiteral (skipFirstNewline s)
  | '\'' :: s => readLiteral s
  | _ => none

end ThreadSoup.Toml
