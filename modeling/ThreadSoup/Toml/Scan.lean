namespace ThreadSoup.Toml

/-- Reads a beginning of the text and gives the rest. -/
abbrev Reader (α : Type) := List Char → Option (α × List Char)

def isBlank (c : Char) : Bool := c == ' ' || c == '\t'

/-- A character that may stand in comments and strings. Control characters may not. -/
def isText (c : Char) : Bool := c == '\t' || (' ' ≤ c && c ≤ '~') || 0x80 ≤ c.toNat

def isDecimalDigit (c : Char) : Bool := '0' ≤ c && c ≤ '9'

def isHexDigit (c : Char) : Bool :=
  isDecimalDigit c || ('a' ≤ c && c ≤ 'f') || ('A' ≤ c && c ≤ 'F')

def isOctalDigit (c : Char) : Bool := '0' ≤ c && c ≤ '7'

def isBinaryDigit (c : Char) : Bool := c == '0' || c == '1'

/-- A character of a key without quotes. -/
def isBare (c : Char) : Bool :=
  ('A' ≤ c && c ≤ 'Z') || ('a' ≤ c && c ≤ 'z') || isDecimalDigit c || c == '_' || c == '-'

def skipBlanks (s : List Char) : List Char := s.dropWhile isBlank

/-- A carriage return before a line feed is not part of the text. -/
def unifyNewlines : List Char → List Char
  | '\r' :: '\n' :: s => '\n' :: unifyNewlines s
  | c :: s => c :: unifyNewlines s
  | [] => []

/-- Skips a comment, if there is one, up to the first character that cannot belong to it. -/
def skipComment : List Char → List Char
  | '#' :: s => s.dropWhile isText
  | s => s

/-- Skips blanks, a comment and the end of the line, or fails if anything else is left. -/
def endLine (s : List Char) : Option (List Char) :=
  match skipComment (skipBlanks s) with
  | [] => some []
  | '\n' :: rest => some rest
  | _ => none

/-- Skips blanks, line ends and comments. The flag says that a comment is open. -/
def skipPadding : Bool → List Char → Option (List Char)
  | _, [] => some []
  | inComment, c :: s =>
    if c = '\n' then skipPadding false s
    else if inComment then if isText c then skipPadding true s else none
    else if isBlank c then skipPadding false s
    else if c = '#' then skipPadding true s
    else some (c :: s)

/-- The digits at the beginning of the text. An underscore may stand between two digits. -/
def readDigits (isDigit : Char → Bool) : List Char → List Char × List Char
  | '_' :: c :: s =>
    if isDigit c then
      let (digits, rest) := readDigits isDigit s
      (c :: digits, rest)
    else ([], '_' :: c :: s)
  | c :: s =>
    if isDigit c then
      let (digits, rest) := readDigits isDigit s
      (c :: digits, rest)
    else ([], c :: s)
  | [] => ([], [])

/-- At least one digit, the first one without an underscore before it. -/
def readDigits1 (isDigit : Char → Bool) : Reader (List Char)
  | c :: s =>
    if isDigit c then
      let (digits, rest) := readDigits isDigit s
      some (c :: digits, rest)
    else none
  | [] => none

def digitValue (c : Char) : Nat :=
  if isDecimalDigit c then c.toNat - '0'.toNat
  else if c ≤ 'F' then c.toNat - 'A'.toNat + 10
  else c.toNat - 'a'.toNat + 10

def digitsValue (base : Nat) (digits : List Char) : Nat :=
  digits.foldl (fun n c => n * base + digitValue c) 0

end ThreadSoup.Toml
