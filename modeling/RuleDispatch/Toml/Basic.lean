import RuleDispatch.Keyed

/-! # Settings

A settings document is a table of values, some of them tables again. Tables come about in different
ways, and how one came about decides what may still be added to it: a table with a header of its own
is not opened a second time, and a table written between braces is closed.

* `Setting` — a value; `Origin` says how a table came about.
* `Setting.extend?` — a change to the table at the end of a path, with the tables on the way opened
  as needed.
* `Setting.insert?`, `Setting.open?`, `Setting.append?` — a key set, a header, a header of a list. -/

namespace RuleDispatch

/-- How a table **came about**. -/
inductive Origin where
  /-- By a header of its own; the whole document too. -/
  | header
  /-- On the way to a header further down. -/
  | implied
  /-- On the way to a key with dots. -/
  | dotted
  /-- Between braces. -/
  | braces
deriving DecidableEq, Repr

/-- A **value** of a settings document. -/
inductive Setting where
  | text (s : String)
  | flag (b : Bool)
  | integer (n : Int)
  | real (x : Float)
  | moment (written : String)
  | list (items : List Setting)
  | table (origin : Origin) (entries : List (String × Setting))
  /-- Tables that share a header, in order. -/
  | tables (items : List (List (String × Setting)))

/-- The entries of a table. -/
abbrev Entries := Keyed Setting

namespace Setting

/-- A **change at the end of a path**. Tables that are missing are opened; of tables that share a
header the last is meant. On the way along a key with dots (`dotted`) a table with a header of its
own is closed. -/
def extend? (dotted : Bool) (change : Origin → Entries → Option Entries) :
    List String → Origin → Entries → Option Entries
  | [], origin, entries => change origin entries
  | key :: path, _, entries =>
    match entries.lookup key with
    | none =>
      let origin := if dotted then .dotted else .implied
      (extend? dotted change path origin []).map fun inner =>
        entries.put key (.table origin inner)
    | some (.table origin inner) =>
      if origin = .braces || (dotted && origin = .header) then none
      else (extend? dotted change path origin inner).map fun inner =>
        entries.put key (.table origin inner)
    | some (.tables items) =>
      match items.getLast? with
      | none => none
      | some last => (extend? dotted change path .header last).map fun inner =>
        entries.put key (.tables (items.dropLast ++ [inner]))
    | some _ => none

/-- A **key set** in a table, at the end of a path of dots. It must be new, and the path must lead
through tables that came about by dots only. -/
def insert? (path : List String) (key : String) (value : Setting) (origin : Origin)
    (entries : Entries) : Option Entries :=
  extend? true
    (fun origin entries =>
      if (origin == .dotted) == path.isEmpty || (entries.lookup key).isSome then none
      else some (entries.put key value))
    path origin entries

/-- A **table opened** by its header: a new one, or one that was only implied so far. -/
def open? (path : List String) (key : String) (entries : Entries) : Option Entries :=
  extend? false
    (fun _ entries =>
      match entries.lookup key with
      | none => some (entries.put key (.table .header []))
      | some (.table .implied inner) => some (entries.put key (.table .header inner))
      | some _ => none)
    path .header entries

/-- One more table **under a shared header**. -/
def append? (path : List String) (key : String) (entries : Entries) : Option Entries :=
  extend? false
    (fun _ entries =>
      match entries.lookup key with
      | none => some (entries.put key (.tables [[]]))
      | some (.tables items) => some (entries.put key (.tables (items ++ [[]])))
      | some _ => none)
    path .header entries

end Setting

end RuleDispatch
