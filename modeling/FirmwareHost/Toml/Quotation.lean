import FirmwareHost.Hex

/-! Strings in quotes. There are four forms: on one line or between triple quotes, each with escapes
or without. Between triple quotes one or two quotes may stand alone, and up to two may touch the
closing ones. -/

namespace FirmwareHost.Toml

/-- Characters that stand for themselves, apart from what a form makes of quotes and backslashes. -/
def isText (c : Char) : Bool := c = '\t' || (' ' ≤ c && c ≠ '\x7f')

def isBlank (c : Char) : Bool := c = ' ' || c = '\t'

/-- The character with the given code, unless it is a surrogate or out of range. -/
def scalar? (n : Nat) : Option Char :=
  if h : n.isValidChar then some (Char.ofNatAux n h) else none

/-- How far an escape has been read: the backslash, or some of its digits. -/
inductive Escape where
  | opened
  | digits (owed value : Nat)
  deriving DecidableEq, Repr

inductive EscapeStep where
  | more (e : Escape)
  | char (c : Char)
  | bad

namespace Escape

def short? : Char → Option Char
  | 'b' => some '\x08'
  | 't' => some '\t'
  | 'n' => some '\n'
  | 'f' => some '\x0c'
  | 'r' => some '\r'
  | '"' => some '"'
  | '\\' => some '\\'
  | _ => none

def step (c : Char) : Escape → EscapeStep
  | .opened =>
    match short? c with
    | some d => .char d
    | none => if c = 'u' then .more (.digits 4 0) else if c = 'U' then .more (.digits 8 0) else .bad
  | .digits owed value =>
    match Hex.digit? c with
    | none => .bad
    | some d =>
      if 1 < owed then .more (.digits (owed - 1) (16 * value + d))
      else
        match scalar? (16 * value + d) with
        | some c => .char c
        | none => .bad

end Escape

/-- A form of quotation: its quote, and whether a backslash escapes. -/
structure Quotation where
  quote : Char
  escapes : Bool

/-- What was read, and the text behind it. -/
abbrev Reading (α : Type) := Option (α × List Char)

def Reading.prepend (cs : List Char) (r : Reading (List Char)) : Reading (List Char) :=
  r.map fun (ds, rest) => (cs ++ ds, rest)

namespace Quotation

def basic : Quotation := ⟨'"', true⟩

def literal : Quotation := ⟨'\x27', false⟩

def readShort (q : Quotation) : Option Escape → List Char → Reading (List Char)
  | _, [] => none
  | some e, c :: rest =>
    match e.step c with
    | .more e => q.readShort (some e) rest
    | .char d => (q.readShort none rest).prepend [d]
    | .bad => none
  | none, c :: rest =>
    if c = q.quote then some ([], rest)
    else if q.escapes && c = '\\' then q.readShort (some .opened) rest
    else if isText c then (q.readShort none rest).prepend [c]
    else none

inductive Place where
  | plain
  | escape (e : Escape)
  /-- Behind a carriage return, which a line feed must follow. -/
  | carriage
  /-- Behind quotes that may be text or may close. -/
  | quotes (n : Nat)
  /-- Behind a backslash and blanks, which a line break must follow. -/
  | continued (carriage : Bool)
  /-- Behind a backslash and a line break: blanks and line breaks are dropped. -/
  | trimming (carriage : Bool)
  deriving DecidableEq, Repr

def stepPlain (q : Quotation) (c : Char) : Option (List Char × Place) :=
  if c = q.quote then some ([], .quotes 1)
  else if q.escapes && c = '\\' then some ([], .escape .opened)
  else if c = '\n' then some (['\n'], .plain)
  else if c = '\r' then some ([], .carriage)
  else if isText c then some ([c], .plain)
  else none

def stepEscape (c : Char) (e : Escape) : Option (List Char × Place) :=
  match e, c with
  | .opened, ' ' => some ([], .continued false)
  | .opened, '\t' => some ([], .continued false)
  | .opened, '\r' => some ([], .continued true)
  | .opened, '\n' => some ([], .trimming false)
  | e, c =>
    match e.step c with
    | .more e => some ([], .escape e)
    | .char d => some ([d], .plain)
    | .bad => none

def step (q : Quotation) (c : Char) : Place → Option (List Char × Place)
  | .plain => q.stepPlain c
  | .escape e => stepEscape c e
  | .carriage => if c = '\n' then some (['\n'], .plain) else none
  | .quotes n => (q.stepPlain c).map fun (cs, p) => (List.replicate n q.quote ++ cs, p)
  | .continued false =>
    if isBlank c then some ([], .continued false)
    else if c = '\n' then some ([], .trimming false)
    else if c = '\r' then some ([], .continued true)
    else none
  | .trimming false =>
    if isBlank c || c = '\n' then some ([], .trimming false)
    else if c = '\r' then some ([], .trimming true)
    else q.stepPlain c
  | .continued true | .trimming true => if c = '\n' then some ([], .trimming false) else none

def readLong (q : Quotation) : Place → List Char → Reading (List Char)
  | .quotes n, [] => if 3 ≤ n then some (List.replicate (n - 3) q.quote, []) else none
  | _, [] => none
  | .quotes n, c :: rest =>
    if c = q.quote then
      if 4 ≤ n then some ([q.quote, q.quote], rest) else q.readLong (.quotes (n + 1)) rest
    else if 3 ≤ n then some (List.replicate (n - 3) q.quote, c :: rest)
    else
      match q.step c (.quotes n) with
      | some (cs, p) => (q.readLong p rest).prepend cs
      | none => none
  | p, c :: rest =>
    match q.step c p with
    | some (cs, p) => (q.readLong p rest).prepend cs
    | none => none

/-- A line break right behind the opening triple quotes is not text. -/
def dropBreak : List Char → List Char
  | '\n' :: rest => rest
  | '\r' :: '\n' :: rest => rest
  | cs => cs

/-- Reads a string of this form, if one begins here. -/
def read (q : Quotation) : List Char → Reading String
  | a :: b :: c :: rest =>
    if a = q.quote ∧ b = q.quote ∧ c = q.quote then
      (q.readLong .plain (dropBreak rest)).map fun (cs, rest) => (String.ofList cs, rest)
    else if a = q.quote then
      (q.readShort none (b :: c :: rest)).map fun (cs, rest) => (String.ofList cs, rest)
    else none
  | a :: rest =>
    if a = q.quote then (q.readShort none rest).map fun (cs, rest) => (String.ofList cs, rest)
    else none
  | [] => none

end Quotation

end FirmwareHost.Toml
