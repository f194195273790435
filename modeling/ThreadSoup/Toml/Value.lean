namespace ThreadSoup.Toml

/-- How a table came to be, which decides what may be added to it. -/
inductive Origin where
  /-- Named by a header of its own. -/
  | header
  /-- Known only as a parent of a table with a header. -/
  | parent
  /-- Written as the beginning of a dotted key. -/
  | dotted
  /-- Written in braces, and so complete. -/
  | inline
deriving DecidableEq

inductive Value where
  | integer (n : Int)
  | float (x : Float)
  | boolean (b : Bool)
  | text (s : String)
  /-- A date, a time or both, as written. -/
  | date (written : String)
  | array (items : List Value)
  | table (origin : Origin) (entries : List (String × Value))
  /-- Tables that each have a header in double brackets, the last one first. -/
  | tables (last : List (String × Value)) (before : List (List (String × Value)))

/-- The contents of a table. Keys differ from each other. -/
abbrev Entries := List (String × Value)

namespace Entries

def get? (entries : Entries) (key : String) : Option Value := entries.lookup key

/-- Gives a key its value, in place if the key is known. -/
def set (key : String) (value : Value) : Entries → Entries
  | [] => [(key, value)]
  | (other, old) :: entries =>
    if other = key then (key, value) :: entries else (other, old) :: set key value entries

/-- Changes the table at a path of headers. Missing tables are made, and of tables in an array
the last one is meant. -/
def within (change : Entries → Option Entries) : List String → Entries → Option Entries
  | [], entries => change entries
  | key :: path, entries =>
    match get? entries key with
    | none => do return set key (.table .parent (← within change path [])) entries
    | some (.table origin inner) =>
      if origin = .inline then none
      else do return set key (.table origin (← within change path inner)) entries
    | some (.tables last before) => do
      return set key (.tables (← within change path last) before) entries
    | some _ => none

/-- Gives a new key its value. -/
def addKey (key : String) (value : Value) (entries : Entries) : Option Entries :=
  match get? entries key with
  | none => some (set key value entries)
  | some _ => none

/-- Gives a dotted key its value. The innermost table must itself have come from a dotted key;
the tables around it may also be parents of tables with headers. -/
def assign (value : Value) : List String → Entries → Option Entries
  | [], _ => none
  | [key], entries => addKey key value entries
  | key :: path, entries =>
    match get? entries key with
    | none => do return set key (.table .dotted (← assign value path [])) entries
    | some (.table .dotted inner) => do
      return set key (.table .dotted (← assign value path inner)) entries
    | some (.table .parent inner) =>
      if path.length = 1 then none
      else do return set key (.table .parent (← assign value path inner)) entries
    | some (.tables last before) =>
      if path.length = 1 then none
      else do return set key (.tables (← assign value path last) before) entries
    | some _ => none

/-- Opens the table of a header. It may so far be known as a parent only. -/
def openTable (key : String) (entries : Entries) : Option Entries :=
  match get? entries key with
  | none => some (set key (.table .header []) entries)
  | some (.table .parent inner) => some (set key (.table .header inner) entries)
  | some _ => none

/-- Opens another table of an array. -/
def openElement (key : String) (entries : Entries) : Option Entries :=
  match get? entries key with
  | none => some (set key (.tables [] []) entries)
  | some (.tables last before) => some (set key (.tables [] (last :: before)) entries)
  | some _ => none

end Entries

end ThreadSoup.Toml
