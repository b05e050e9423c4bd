import FirmwareHost.Toml.Quotation

/-! Writing a table of strings and integers, one pair a line. A string is written without escapes
where one of the forms allows it. -/

namespace FirmwareHost.Toml

inductive Scalar where
  | string (s : String)
  | integer (n : Int)
  deriving DecidableEq, Repr

namespace Printer

/-- Controls that no form may hold as they are. -/
def isControl (c : Char) : Bool := !isText c && c ≠ '\n'

def longestRun (c : Char) (cs : List Char) : Nat :=
  go 0 cs
where
  go : Nat → List Char → Nat
    | run, [] => run
    | run, d :: rest => if d = c then go (run + 1) rest else max run (go 0 rest)

def upperHex (n : Nat) : List Char := (Hex.padded 4 n).map Char.toUpper

/-- The escape of a character that is not a quote or a line feed. -/
def escape (c : Char) : List Char :=
  if c = '\\' then ['\\', '\\']
  else if c = '\t' then ['\\', 't']
  else if c = '\x08' then ['\\', 'b']
  else if c = '\x0c' then ['\\', 'f']
  else if c = '\r' then ['\\', 'r']
  else if isText c then [c]
  else '\\' :: 'u' :: upperHex c.toNat

def escapeShort (c : Char) : List Char :=
  if c = '"' then ['\\', '"'] else if c = '\n' then ['\\', 'n'] else escape c

/-- Every third quote of a run is escaped. -/
def escapeLong : Nat → List Char → List Char
  | _, [] => []
  | run, c :: rest =>
    if c = '"' then
      if run = 2 then '\\' :: '"' :: escapeLong 0 rest else '"' :: escapeLong (run + 1) rest
    else (if c = '\n' then ['\n'] else escape c) ++ escapeLong 0 rest

def shortBasic (cs : List Char) : List Char := '"' :: cs.flatMap escapeShort ++ ['"']

def shortLiteral (cs : List Char) : List Char := '\x27' :: cs ++ ['\x27']

/-- A line feed behind the opening quotes is not text, and is put there where lines follow. -/
def opening (cs : List Char) : List Char := if cs.contains '\n' then ['\n'] else []

def longBasic (cs : List Char) : List Char :=
  ['"', '"', '"'] ++ opening cs ++ escapeLong 0 cs ++ ['"', '"', '"']

def longLiteral (cs : List Char) : List Char :=
  ['\x27', '\x27', '\x27'] ++ opening cs ++ cs ++ ['\x27', '\x27', '\x27']

def string (cs : List Char) : List Char :=
  let lines := cs.contains '\n'
  let backslash := cs.contains '\\'
  let quotes := longestRun '"' cs
  let apostrophes := longestRun '\x27' cs
  if cs.any isControl then if lines then longBasic cs else shortBasic cs
  else if !backslash && quotes = 0 && !lines then shortBasic cs
  else if apostrophes = 0 && !lines then shortLiteral cs
  else if !backslash && quotes ≤ 2 then longBasic cs
  else if apostrophes ≤ 2 then longLiteral cs
  else if lines then longBasic cs
  else shortBasic cs

def scalar : Scalar → List Char
  | .string s => string s.toList
  | .integer n => (toString n).toList

def pair (key : String) (v : Scalar) : List Char :=
  key.toList ++ [' ', '=', ' '] ++ scalar v ++ ['\n']

end Printer

/-- The text of a table whose keys need no quotes. -/
def print (pairs : List (String × Scalar)) : String :=
  String.ofList (pairs.flatMap fun (key, v) => Printer.pair key v)

end FirmwareHost.Toml
