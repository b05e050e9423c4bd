import FirmwareHost.MessageLoop
import FirmwareHost.Mailbox.Channel
import FirmwareHost.Text.Quoted
import FirmwareHost.Toml.Printer
import FirmwareHost.Toml.Reader

/-! The configuration of the dispatch service: what a file may set, what is valid, and how it is
written back. -/

namespace FirmwareHost

inductive BusKind where
  | system
  | session
  deriving DecidableEq, Repr

def BusKind.name : BusKind → String
  | .system => "system"
  | .session => "session"

structure Config where
  bus : BusKind
  serviceName : String
  objectPath : String
  interface : String
  mailboxSize : UInt64
  waitTimeout : UInt64
  /-- Without one, answers are waited for with no end. -/
  responseTimeout : Option UInt64
  logLevel : String
  deriving DecidableEq, Repr

inductive InvalidConfig where
  | mailboxTooSmall (size : UInt64)
  | zeroWait
  | relativePath (path : String)
  /-- A number that a file cannot hold. -/
  | outOfRange
  deriving DecidableEq, Repr

def InvalidConfig.message : InvalidConfig → String
  | .mailboxTooSmall size =>
    "mailbox_size must be at least " ++ toString Mailbox.minSize ++ ", got " ++
      toString size.toNat
  | .zeroWait => "wait_timeout_ms must be non-zero"
  | .relativePath path => "object_path must be absolute, got " ++ quoted path
  | .outOfRange => "out-of-range value for u64 type"

inductive SettingKind where
  | size
  | number
  | text
  deriving DecidableEq, Repr

def SettingKind.name : SettingKind → String
  | .size => "usize"
  | .number => "u64"
  | .text => "a string"

inductive ParseError where
  | badSyntax
  | unknownField (key : String)
  | unknownVariant (name : String)
  | wrongType (found : Toml.Value) (expected : SettingKind)
  | negative (n : Int) (expected : SettingKind)
  /-- A bus that is neither a string nor a table that could stand for one. -/
  | noVariant

inductive ConfigError where
  | unreadable (path cause : String)
  | unparsable (e : ParseError)
  | invalid (e : InvalidConfig)

namespace Config

def defaults : Config where
  bus := .system
  serviceName := "com.intel.PrmDispatch"
  objectPath := "/com/intel/PrmDispatch"
  interface := "com.intel.PrmDispatch"
  mailboxSize := .ofNat Mailbox.defaultSize
  waitTimeout := .ofNat MessageLoop.defaultTimeout
  responseTimeout := none
  logLevel := "info"

/-- The keys of a file, in the order in which they are written. -/
def keys : List String :=
  ["bus", "service_name", "object_path", "interface", "mailbox_size", "wait_timeout_ms",
    "response_timeout_ms", "log_level"]

end Config

namespace Toml.Value

def describe : Toml.Value → String
  | .string s => "string " ++ quoted s
  | .integer n => "integer `" ++ toString n ++ "`"
  | .float x => "floating point `" ++ x.text ++ "`"
  | .boolean b => "boolean `" ++ toString b ++ "`"
  | .moment => "map"
  | .array _ => "sequence"
  | .table _ _ => "map"
  | .tables _ => "sequence"

def isEmpty : Toml.Value → Bool
  | .array items => items.isEmpty
  | .table _ entries => entries.isEmpty
  | .tables rows => rows.isEmpty
  | _ => false

def toText : Toml.Value → Except ParseError String
  | .string s => .ok s
  | v => .error (.wrongType v .text)

def toWord (kind : SettingKind) : Toml.Value → Except ParseError UInt64
  | .integer n => if n < 0 then .error (.negative n kind) else .ok (.ofNat n.toNat)
  | v => .error (.wrongType v kind)

def busOfName (name : String) : Except ParseError BusKind :=
  if name = BusKind.system.name then .ok .system
  else if name = BusKind.session.name then .ok .session
  else .error (.unknownVariant name)

/-- A bus is a name, or a table with that name as its only key and nothing in it. -/
def toBus : Toml.Value → Except ParseError BusKind
  | .string s => busOfName s
  | .table _ [(name, v)] => do
    let bus ← busOfName name
    if v.isEmpty then return bus else .error .noVariant
  | _ => .error .noVariant

end Toml.Value

namespace ParseError

def listed (names : List String) : String :=
  String.intercalate ", " (names.map fun n => "`" ++ n ++ "`")

def detail : ParseError → Option String
  | .badSyntax | .noVariant => none
  | .unknownField key =>
    some ("unknown field `" ++ key ++ "`, expected one of " ++ listed Config.keys)
  | .unknownVariant name =>
    some ("unknown variant `" ++ name ++ "`, expected `" ++ BusKind.system.name ++ "` or `" ++
      BusKind.session.name ++ "`")
  | .wrongType found expected =>
    some ("invalid type: " ++ found.describe ++ ", expected " ++ expected.name)
  | .negative n expected =>
    some ("invalid value: integer `" ++ toString n ++ "`, expected " ++ expected.name)

end ParseError

/-- The text of an error; that of a parse error is its detail. -/
def ConfigError.message? : ConfigError → Option String
  | .unreadable path cause => some ("failed to read " ++ path ++ ": " ++ cause)
  | .unparsable e => e.detail
  | .invalid e => some ("invalid config: " ++ e.message)

namespace Config

def set (c : Config) (key : String) (v : Toml.Value) : Except ParseError Config :=
  match key with
  | "bus" => v.toBus.map fun bus => { c with bus }
  | "service_name" => v.toText.map fun serviceName => { c with serviceName }
  | "object_path" => v.toText.map fun objectPath => { c with objectPath }
  | "interface" => v.toText.map fun interface => { c with interface }
  | "mailbox_size" => (v.toWord .size).map fun mailboxSize => { c with mailboxSize }
  | "wait_timeout_ms" => (v.toWord .number).map fun waitTimeout => { c with waitTimeout }
  | "response_timeout_ms" => (v.toWord .number).map fun t => { c with responseTimeout := some t }
  | "log_level" => v.toText.map fun logLevel => { c with logLevel }
  | key => .error (.unknownField key)

/-- The settings of a table over the defaults. The first key with a fault decides. -/
def ofEntries (entries : Toml.Entries) : Except ParseError Config :=
  entries.foldlM (fun c (key, v) => c.set key v) defaults

def validate (c : Config) : Except InvalidConfig Unit :=
  if c.mailboxSize.toNat < Mailbox.minSize then .error (.mailboxTooSmall c.mailboxSize)
  else if c.waitTimeout = 0 then .error .zeroWait
  else if c.objectPath.toList.head? ≠ some '/' then .error (.relativePath c.objectPath)
  else .ok ()

def parse (text : String) : Except ConfigError Config := do
  match Toml.parse text with
  | none => .error (.unparsable .badSyntax)
  | some entries =>
    match ofEntries entries with
    | .error e => .error (.unparsable e)
    | .ok c =>
      match c.validate with
      | .error e => .error (.invalid e)
      | .ok () => .ok c

/-- A number in a file is a signed one. -/
def scalar? (w : UInt64) : Except InvalidConfig Toml.Scalar :=
  if w.toNat < 0x8000000000000000 then .ok (.integer w.toNat) else .error .outOfRange

/-- The settings as a table. A response timeout is written only if there is one. -/
def toPairs (c : Config) : Except InvalidConfig (List (String × Toml.Scalar)) := do
  let mailboxSize ← scalar? c.mailboxSize
  let waitTimeout ← scalar? c.waitTimeout
  let responseTimeout ← match c.responseTimeout with
    | none => pure []
    | some t => do pure [("response_timeout_ms", ← scalar? t)]
  return [("bus", .string c.bus.name),
    ("service_name", .string c.serviceName),
    ("object_path", .string c.objectPath),
    ("interface", .string c.interface),
    ("mailbox_size", mailboxSize),
    ("wait_timeout_ms", waitTimeout)] ++ responseTimeout ++ [("log_level", .string c.logLevel)]

def print (c : Config) : Except ConfigError String :=
  match c.toPairs with
  | .ok pairs => .ok (Toml.print pairs)
  | .error e => .error (.invalid e)

end Config

end FirmwareHost
