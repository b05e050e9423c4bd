import FirmwareHost.Toml.Value

/-! Tables built from lines. A key is written once; a header may name a table that other headers
merely implied; dotted keys may only extend tables that dotted keys made. -/

namespace FirmwareHost.Toml

inductive Line where
  | blank
  | pair (path : List String) (value : Value)
  | header (path : List String)
  | arrayHeader (path : List String)

namespace Entries

def replace (key : String) (value : Value) (t : Entries) : Entries :=
  t.map fun (k, v) => if k = key then (k, value) else (k, v)

def erase (key : String) (t : Entries) : Entries := t.filter fun (k, _) => k ≠ key

/-- Whether a header, or a dotted key, may pass through a table. -/
def admits (dotted : Bool) : Origin → Bool
  | .inline => false
  | .header => !dotted
  | .implied | .dotted => true

/-- Makes a change to the table at a path. Tables that are missing on the way are made. -/
def change {α : Type} (dotted : Bool) (f : Origin → Entries → Option (α × Entries)) :
    List String → Origin → Entries → Option (α × Entries)
  | [], origin, t => f origin t
  | key :: path, _, t =>
    match t.lookup key with
    | none =>
      let made := if dotted then .dotted else .implied
      (change dotted f path made []).map fun (a, sub) => (a, t ++ [(key, .table made sub)])
    | some (.table origin sub) =>
      if admits dotted origin then
        (change dotted f path origin sub).map fun (a, sub) =>
          (a, replace key (.table origin sub) t)
      else none
    | some (.tables rows) =>
      match rows.getLast? with
      | none => none
      | some row =>
        (change dotted f path .header row).map fun (a, row) =>
          (a, replace key (.tables (rows.dropLast ++ [row])) t)
    | some _ => none

def add? (key : String) (value : Value) (t : Entries) : Option Entries :=
  match t.lookup key with
  | none => some (t ++ [(key, value)])
  | some _ => none

def addAt? (path : List String) (value : Value) (t : Entries) : Option Entries :=
  match path.getLast? with
  | none => none
  | some key =>
    let dotted := 1 < path.length
    (change true
      (fun origin t =>
        if decide (origin = .dotted) = dotted then (t.add? key value).map fun t => ((), t)
        else none)
      path.dropLast .header t).map Prod.snd

def ofPairs (pairs : List (List String × Value)) : Option Entries :=
  pairs.foldlM (fun t (path, value) => t.addAt? path value) []

end Entries

/-- A document being built: the tables that are complete, and the one that lines are added to. -/
structure Document where
  root : Entries
  path : List String
  isRow : Bool
  current : Entries

namespace Document

def initial : Document := ⟨[], [], false, []⟩

def close (d : Document) : Option Entries :=
  match d.path.getLast? with
  | none => some d.current
  | some key =>
    (Entries.change false
      (fun _ t =>
        if d.isRow then
          match t.lookup key with
          | some (.tables rows) => some ((), t.replace key (.tables (rows ++ [d.current])))
          | _ => none
        else (t.add? key (.table .header d.current)).map fun t => ((), t))
      d.path.dropLast .header d.root).map Prod.snd

/-- Opens the table of a header. What other headers implied moves into it. -/
def openTable (path : List String) (d : Document) : Option Document := do
  let root ← d.close
  let key ← path.getLast?
  let (current, root) ← Entries.change false
    (fun _ t =>
      match t.lookup key with
      | none => some ([], t)
      | some (.table .implied sub) => some (sub, t.erase key)
      | some _ => none)
    path.dropLast .header root
  return ⟨root, path, false, current⟩

def openRow (path : List String) (d : Document) : Option Document := do
  let root ← d.close
  let key ← path.getLast?
  let (_, root) ← Entries.change false
    (fun _ t =>
      match t.lookup key with
      | none => some ((), t ++ [(key, .tables [])])
      | some (.tables _) => some ((), t)
      | some _ => none)
    path.dropLast .header root
  return ⟨root, path, true, []⟩

def add (d : Document) : Line → Option Document
  | .blank => some d
  | .pair path value => (d.current.addAt? path value).map fun current => { d with current }
  | .header path => d.openTable path
  | .arrayHeader path => d.openRow path

/-- The top table of the document with these lines. -/
def ofLines (lines : List Line) : Option Entries :=
  (lines.foldlM add initial).bind close

end Document

end FirmwareHost.Toml
