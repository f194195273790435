import ThreadSoup.Toml.Number
import ThreadSoup.Toml.Quoted

namespace ThreadSoup.Toml

/-- Neither arrays and inline tables nor the parts of a dotted key may nest this deep. -/
def depthLimit : Nat := 80

/-- One part of a key, with or without quotes. -/
def readKeyPart : Reader String
  | '"' :: s => do
    let (chars, rest) ← readBasic s
    return (String.ofList chars, rest)
  | '\'' :: s => do
    let (chars, rest) ← readLiteral s
    return (String.ofList chars, rest)
  | s =>
    let chars := s.takeWhile isBare
    if chars.isEmpty then none else some (String.ofList chars, s.dropWhile isBare)

/-- The parts of a dotted key, with the blanks around them. -/
def readKeyParts (s : List Char) : Option (List String × List Char) := do
  let (part, rest) ← readKeyPart (skipBlanks s)
  match skipBlanks rest with
  | '.' :: after =>
    if after.length < s.length then
      let (parts, rest) ← readKeyParts after
      return (part :: parts, rest)
    else none
  | rest => return ([part], rest)
termination_by s.length

def readKey (s : List Char) : Option (List String × List Char) := do
  let (parts, rest) ← readKeyParts s
  if parts.length < depthLimit then return (parts, rest) else none

/-- A key, an equals sign and a value. -/
def readAssignment (readItem : Reader Value) (s : List Char) :
    Option ((List String × Value) × List Char) := do
  let (key, s) ← readKey s
  let s ← skipChar '=' s
  let (value, rest) ← readItem (skipBlanks s)
  return ((key, value), rest)

/-- The rest of an array. A comma may follow the last item. -/
def readItems (readItem : Reader Value) (s : List Char) : Option (List Value × List Char) := do
  match ← skipPadding false s with
  | ']' :: rest => return ([], rest)
  | start =>
    let (item, rest) ← readItem start
    match ← skipPadding false rest with
    | ']' :: rest => return ([item], rest)
    | ',' :: after =>
      if after.length < s.length then
        let (items, rest) ← readItems readItem after
        return (item :: items, rest)
      else none
    | _ => none
termination_by s.length

/-- The assignments of an inline table and its closing brace. -/
def readMembers (readItem : Reader Value) (s : List Char) :
    Option (List (List String × Value) × List Char) := do
  let (member, rest) ← readAssignment readItem s
  match skipBlanks rest with
  | '}' :: rest => return ([member], rest)
  | ',' :: after =>
    if after.length < s.length then
      let (members, rest) ← readMembers readItem after
      return (member :: members, rest)
    else none
  | _ => none
termination_by s.length

/-- The rest of an inline table. It stands on one line, with no comma after the last member. -/
def readInlineTable (readItem : Reader Value) (s : List Char) : Option (Value × List Char) :=
  match skipBlanks s with
  | '}' :: rest => some (.table .inline [], rest)
  | s => do
    let (members, rest) ← readMembers readItem s
    let entries ← members.foldlM (fun entries (key, value) => Entries.assign value key entries) []
    return (.table .inline entries, rest)

def readScalar : Reader Value
  | 't' :: 'r' :: 'u' :: 'e' :: s => some (.boolean true, s)
  | 'f' :: 'a' :: 'l' :: 's' :: 'e' :: s => some (.boolean false, s)
  | s =>
    match readString s with
    | some (chars, rest) => some (.text (String.ofList chars), rest)
    | none => readNumber s

/-- A value in which arrays and inline tables nest at most `depth` deep. -/
def readValue : Nat → Reader Value
  | depth + 1, '[' :: s => do
    let (items, rest) ← readItems (readValue depth) s
    return (.array items, rest)
  | depth + 1, '{' :: s => readInlineTable (readValue depth) s
  | _, s => readScalar s

/-- What a line of a document says. -/
inductive Statement where
  | assign (key : List String) (value : Value)
  | header (path : List String)
  | element (path : List String)

/-- A statement, if the line has one. -/
def readStatement : Reader (Option Statement)
  | '[' :: '[' :: s => do
    let (path, s) ← readKey s
    let s ← skipChar ']' s
    let s ← skipChar ']' s
    return (some (.element path), s)
  | '[' :: s => do
    let (path, s) ← readKey s
    let s ← skipChar ']' s
    return (some (.header path), s)
  | s =>
    if s.head?.all fun c => c == '\n' || c == '#' then some (none, s)
    else do
      let ((key, value), rest) ← readAssignment (readValue (depthLimit - 1)) s
      return (some (.assign key value), rest)

def readStatements (s : List Char) : Option (List Statement) :=
  if s.isEmpty then some []
  else do
    let (statement, rest) ← readStatement (skipBlanks s)
    let rest ← endLine rest
    if rest.length < s.length then
      let statements ← readStatements rest
      return statement.toList ++ statements
    else none
termination_by s.length

/-- A document under construction: its entries and the path of the open table. -/
structure Draft where
  entries : Entries := []
  path : List String := []

def Draft.add (draft : Draft) : Statement → Option Draft
  | .assign key value => do
    return { draft with entries := ← draft.entries.within (Entries.assign value key) draft.path }
  | .header path => do
    let key ← path.getLast?
    return { entries := ← draft.entries.within (Entries.openTable key) path.dropLast, path }
  | .element path => do
    let key ← path.getLast?
    return { entries := ← draft.entries.within (Entries.openElement key) path.dropLast, path }

/-- The entries of a document, which may start with a byte order mark. -/
def parse (text : String) : Option Entries := do
  let chars := match text.toList with
    | '\ufeff' :: s => s
    | s => s
  let statements ← readStatements (unifyNewlines chars)
  let draft ← statements.foldlM Draft.add {}
  return draft.entries

end ThreadSoup.Toml
