/-! Tables of a settings file in TOML 1.1, and how its lines fill them. A table may be opened once
by a header and may be extended by dotted keys only while no header opened it; an inline table is
closed for good. -/
namespace PromptDesk.Toml

/-- How a table came to be. -/
inductive TableKind where
  /-- On the way of a header to a table below it. -/
  | passed
  /-- By a dotted key. -/
  | dotted
  /-- By a header of its own. -/
  | opened
  /-- Written between braces. -/
  | inline
  deriving DecidableEq, Inhabited, Repr

/-- Values, as far as settings can tell them apart. -/
inductive Value where
  | text (s : String)
  | integer (n : Int)
  | floating
  | bool (b : Bool)
  | moment
  | array (items : List Value)
  | table (kind : TableKind) (entries : List (String × Value))
  /-- The tables that share a header in double brackets, the last one first. -/
  | tables (items : List (List (String × Value)))
  deriving Inhabited

abbrev Entries := List (String × Value)

/-- Puts another value at a key that is there. -/
def replace (es : Entries) (key : String) (v : Value) : Entries :=
  es.map fun e => if e.1 == key then (key, v) else e

/-- Works on the table at the end of a path, and makes the tables on the way that are missing. A
path leads through the last one of the tables that share a header. -/
def below (dotted : Bool) : List String → TableKind × Entries →
    (TableKind × Entries → Option (TableKind × Entries)) → Option (TableKind × Entries)
  | [], t, f => f t
  | key :: path, (kind, es), f =>
    match es.lookup key with
    | none =>
      (below dotted path (if dotted then .dotted else .passed, []) f).map fun t =>
        (kind, es ++ [(key, .table t.1 t.2)])
    | some (.table k sub) =>
      if k = .inline ∨ (dotted ∧ k = .opened) then none
      else (below dotted path (k, sub) f).map fun t => (kind, replace es key (.table t.1 t.2))
    | some (.tables (last :: others)) =>
      (below dotted path (.opened, last) f).map fun t =>
        (kind, replace es key (.tables (t.2 :: others)))
    | some _ => none

/-- A key with dots puts its value into a table that only dotted keys may fill. -/
def put (path : List String) (key : String) (v : Value) (t : TableKind × Entries) :
    Option (TableKind × Entries) :=
  below true path t fun (kind, es) =>
    if !path.isEmpty && kind != .dotted then none
    else if (es.lookup key).isSome then none
    else some (kind, es ++ [(key, v)])

/-- Opens the table of a header. -/
def openTable (path : List String) (key : String) (root : Entries) : Option Entries :=
  (below false path (.opened, root) fun (kind, es) =>
    match es.lookup key with
    | none => some (kind, es ++ [(key, .table .opened [])])
    | some (.table .passed sub) => some (kind, replace es key (.table .opened sub))
    | some _ => none).map (·.2)

/-- Adds a table under a header in double brackets. -/
def addTable (path : List String) (key : String) (root : Entries) : Option Entries :=
  (below false path (.opened, root) fun (kind, es) =>
    match es.lookup key with
    | none => some (kind, es ++ [(key, .tables [[]])])
    | some (.tables items) => some (kind, replace es key (.tables ([] :: items)))
    | some _ => none).map (·.2)

/-- Puts a value into the table that was opened last. -/
def putUnder (header : List String) (path : List String) (key : String) (v : Value)
    (root : Entries) : Option Entries :=
  (below false header (.opened, root) (put path key v)).map (·.2)

end PromptDesk.Toml
