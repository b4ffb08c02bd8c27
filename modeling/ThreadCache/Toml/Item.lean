/-!
# Items of a TOML document

Values and tables, and the rules by which keys and headers may add to the tables that are there.
Whether a table may still grow depends on how it came about.
-/

namespace ThreadCache.Toml

/-- How a table came about. -/
inductive Origin
  | header
  | implied
  | dotted
  | braces
  deriving DecidableEq, Repr

/-- What a key stands for. Of numbers with a fraction and of dates only the kind is kept. -/
inductive Item
  | string (value : String)
  | int (value : Int)
  | float
  | bool (value : Bool)
  | date
  | array (items : List Item)
  | table (origin : Origin) (entries : List (String × Item))
  | tables (elements : List (List (String × Item)))
  deriving Repr

abbrev Entries := List (String × Item)

namespace Entries

def get? (entries : Entries) (key : String) : Option Item := List.lookup key entries

/-- The entries with what a key stands for changed, or added if it stood for nothing. -/
def alter (key : String) (f : Option Item → Option Item) : Entries → Option Entries
  | [] => (f none).map fun item => [(key, item)]
  | entry :: rest =>
    if entry.1 = key then (f (some entry.2)).map fun item => (key, item) :: rest
    else (alter key f rest).map (entry :: ·)

/-- The tables under a double header with the last one changed. -/
def alterLast (f : Entries → Option Entries) : List Entries → Option (List Entries)
  | [] => none
  | [last] => (f last).map fun last => [last]
  | first :: rest => (alterLast f rest).map (first :: ·)

/--
Adds a value under a dotted key. No key is given twice, and nothing is added to a table that has a
header or braces of its own.
-/
def assign : List String → Item → Entries → Option Entries
  | [], _, _ => none
  | [key], value, entries =>
    alter key (fun
      | none => some value
      | some _ => none) entries
  | key :: path, value, entries =>
    alter key (fun
      | none => (assign path value []).map (.table .dotted)
      | some (.table .dotted inner) => (assign path value inner).map (.table .dotted)
      -- A table that headers imply takes tables from a dotted key, but no values.
      | some (.table .implied inner) =>
        if path.length = 1 then none else (assign path value inner).map (.table .implied)
      | some (.tables elements) =>
        if path.length = 1 then none else (alterLast (assign path value) elements).map .tables
      | some _ => none) entries

/-- Changes the table that a header leads to, adding the tables on the way. -/
def within : List String → (Entries → Option Entries) → Entries → Option Entries
  | [], f, entries => f entries
  | key :: path, f, entries =>
    alter key (fun
      | none => (within path f []).map (.table .implied)
      | some (.table .braces _) => none
      | some (.table origin inner) => (within path f inner).map (.table origin)
      | some (.tables elements) => (alterLast (within path f) elements).map .tables
      | some _ => none) entries

/-- The table of a header: new, or so far only implied by other headers. -/
def openTable : Option Item → Option Item
  | none => some (.table .header [])
  | some (.table .implied entries) => some (.table .header entries)
  | some _ => none

def addTable : Option Item → Option Item
  | none => some (.tables [[]])
  | some (.tables elements) => some (.tables (elements ++ [[]]))
  | some _ => none

/-- Opens the table that a header names. -/
def enter (path : List String) (double : Bool) (entries : Entries) : Option Entries :=
  match path.getLast? with
  | none => none
  | some key =>
    within path.dropLast (alter key (if double then addTable else openTable)) entries

end Entries

end ThreadCache.Toml
