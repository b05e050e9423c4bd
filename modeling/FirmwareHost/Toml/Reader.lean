import FirmwareHost.Toml.Document
import FirmwareHost.Toml.Moment
import FirmwareHost.Toml.Number

/-! Reading a document: blanks and comments, keys, values, lines. -/

namespace FirmwareHost.Toml

namespace Reader

def skipBlanks (cs : List Char) : List Char := cs.dropWhile isBlank

def readBreak : List Char → Option (List Char)
  | '\n' :: rest => some rest
  | '\r' :: '\n' :: rest => some rest
  | _ => none

def readEnd : List Char → Option (List Char)
  | [] => some []
  | cs => readBreak cs

def skipComment : List Char → List Char
  | '#' :: rest => rest.dropWhile isText
  | cs => cs

/-- What may stand behind a line: blanks, a comment, and the end. -/
def readTrailing (cs : List Char) : Option (List Char) := readEnd (skipComment (skipBlanks cs))

def skipSpace : Bool → List Char → List Char
  | _, [] => []
  | _, '\n' :: rest => skipSpace false rest
  | _, '\r' :: '\n' :: rest => skipSpace false rest
  | true, c :: rest => if isText c then skipSpace true rest else c :: rest
  | false, c :: rest =>
    if isBlank c then skipSpace false rest
    else if c = '#' then skipSpace true rest
    else c :: rest

/-- Characters of a key that needs no quotes. -/
def isBare (c : Char) : Bool := c.isAlphanum || c = '_' || c = '-'

def readSimpleKey : List Char → Reading String
  | [] => none
  | c :: rest =>
    if c = '"' then
      (Quotation.basic.readShort none rest).map fun (k, rest) => (String.ofList k, rest)
    else if c = '\x27' then
      (Quotation.literal.readShort none rest).map fun (k, rest) => (String.ofList k, rest)
    else if isBare c then
      some (String.ofList (c :: rest.takeWhile isBare), rest.dropWhile isBare)
    else none

/-- Keys have fewer than 80 parts, and values are nested fewer than 80 deep. -/
def depthLimit : Nat := 79

/-- Reads a key of at most this many parts, and the blanks around it. -/
def readKeyParts : Nat → List Char → Option (List String × List Char)
  | 0, _ => none
  | limit + 1, cs => do
    let (part, rest) ← readSimpleKey (skipBlanks cs)
    match skipBlanks rest with
    | '.' :: rest =>
      let (parts, rest) ← readKeyParts limit rest
      return (part :: parts, rest)
    | rest => return ([part], rest)

def readKey (cs : List Char) : Reading (List String) := readKeyParts depthLimit cs

/-- A key, an equals sign, and a value. -/
def readPair (value : List Char → Reading Value) (cs : List Char) :
    Option ((List String × Value) × List Char) := do
  let (path, rest) ← readKey cs
  let (v, rest) ← value (skipBlanks (← Moment.readChar '=' rest))
  return ((path, v), rest)

/-- The items of an array up to its closing bracket; a comma may stand behind the last. -/
def readItems (value : List Char → Reading Value) :
    Nat → List Char → Option (List Value × List Char)
  | 0, _ => none
  | fuel + 1, cs =>
    match skipSpace false cs with
    | ']' :: rest => some ([], rest)
    | cs => do
      let (v, rest) ← value cs
      match skipSpace false rest with
      | ',' :: rest =>
        let (vs, rest) ← readItems value fuel rest
        return (v :: vs, rest)
      | ']' :: rest => return ([v], rest)
      | _ => none

/-- The pairs of a table in braces up to its closing brace. -/
def readPairs (value : List Char → Reading Value) :
    Nat → List Char → Option (List (List String × Value) × List Char)
  | 0, _ => none
  | fuel + 1, cs => do
    let (p, rest) ← readPair value cs
    match skipBlanks rest with
    | ',' :: rest =>
      let (ps, rest) ← readPairs value fuel rest
      return (p :: ps, rest)
    | '\x7d' :: rest => return ([p], rest)
    | _ => none

def readInline (value : List Char → Reading Value) (cs : List Char) : Option (Value × List Char) :=
  match skipBlanks cs with
  | '\x7d' :: rest => some (.table .inline [], rest)
  | cs => do
    let (pairs, rest) ← readPairs value cs.length cs
    return (.table .inline (← Entries.ofPairs pairs), rest)

def readString (cs : List Char) : Option (Value × List Char) :=
  match cs with
  | '"' :: _ => (Quotation.basic.read cs).map fun (s, rest) => (.string s, rest)
  | _ => (Quotation.literal.read cs).map fun (s, rest) => (.string s, rest)

/-- A value that is neither an array nor a table. -/
def readScalar (cs : List Char) : Option (Value × List Char) :=
  match cs with
  | '"' :: _ | '\x27' :: _ => readString cs
  | 't' :: 'r' :: 'u' :: 'e' :: rest => some (.boolean true, rest)
  | 'f' :: 'a' :: 'l' :: 's' :: 'e' :: rest => some (.boolean false, rest)
  | _ =>
    match Moment.skip cs with
    | some rest => some (.moment, rest)
    | none => Number.read cs

/-- Reads a value nested at most this deep. -/
def readValue : Nat → List Char → Option (Value × List Char)
  | depth, '[' :: rest =>
    match depth with
    | 0 => none
    | depth + 1 => (readItems (readValue depth) (rest.length + 1) rest).map fun (vs, rest) =>
        (.array vs, rest)
  | depth, '\x7b' :: rest =>
    match depth with
    | 0 => none
    | depth + 1 => readInline (readValue depth) rest
  | _, cs => readScalar cs

def readLine (cs : List Char) : Option (Line × List Char) :=
  match cs with
  | '#' :: _ | '\n' :: _ | '\r' :: _ => (readTrailing cs).map fun rest => (.blank, rest)
  | '[' :: '[' :: rest => do
    let (path, rest) ← readKey rest
    let rest ← Moment.readChar ']' (← Moment.readChar ']' rest)
    return (.arrayHeader path, ← readTrailing rest)
  | '[' :: rest => do
    let (path, rest) ← readKey rest
    return (.header path, ← readTrailing (← Moment.readChar ']' rest))
  | _ => do
    let ((path, v), rest) ← readPair (readValue depthLimit) cs
    return (.pair path v, ← readTrailing rest)

def readLines : Nat → List Char → Option (List Line)
  | 0, _ => none
  | fuel + 1, cs =>
    match skipBlanks cs with
    | [] => some []
    | cs => do
      let (line, rest) ← readLine cs
      return line :: (← readLines fuel rest)

end Reader

/-- The top table of a document, if its text has no fault. A byte order mark may stand first. -/
def parse (text : String) : Option Entries :=
  let cs := text.toList
  let cs := if cs.head? = some '\uFEFF' then cs.tail else cs
  (Reader.readLines (cs.length + 1) cs).bind Document.ofLines

end FirmwareHost.Toml
