import FirmwareHost.Number.Binary64

/-! TOML values. Tables keep their keys in the order in which they were first written, and remember
how they came to be, since that decides what may still be added to them. -/

namespace FirmwareHost.Toml

inductive Origin where
  /-- Written in braces, and closed. -/
  | inline
  /-- Named by a header, or the top of a document. -/
  | header
  /-- On the way to the table of a header. -/
  | implied
  /-- On the way to a dotted key. -/
  | dotted
  deriving DecidableEq, Repr

inductive Value where
  | string (s : String)
  | integer (n : Int)
  | float (x : Binary64)
  | boolean (b : Bool)
  /-- A date, a time of day, or both. Which one is not kept. -/
  | moment
  | array (items : List Value)
  | table (origin : Origin) (entries : List (String × Value))
  /-- The tables of one array header. -/
  | tables (rows : List (List (String × Value)))
  deriving Repr

abbrev Entries := List (String × Value)

end FirmwareHost.Toml
