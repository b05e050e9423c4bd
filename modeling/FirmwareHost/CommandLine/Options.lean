/-! The options of the command line. A value may be attached to its option or stand behind it; one
that stands behind is taken up when the next option or the end is reached, so its faults show only
then, and not at all when an unknown argument comes first. -/

namespace FirmwareHost

inductive Usage where
  | displayHelp
  | displayVersion
  | unknownArgument
  | invalidValue
  | argumentConflict
  | tooManyValues
  deriving DecidableEq, Repr

def Usage.exitCode : Usage → Nat
  | .displayHelp | .displayVersion => 0
  | _ => 2

structure Options where
  config : Option String
  session : Bool
  logLevel : Option String
  printConfig : Bool
  deriving DecidableEq, Repr

namespace Options

def empty : Options := ⟨none, false, none, false⟩

inductive Valued where
  | config
  | logLevel
  deriving DecidableEq, Repr

inductive Flag where
  | session
  | printConfig
  | help
  | version
  deriving DecidableEq, Repr

inductive Name where
  | valued (o : Valued)
  | flag (f : Flag)
  deriving DecidableEq, Repr

def longName? : String → Option Name
  | "config" => some (.valued .config)
  | "log-level" => some (.valued .logLevel)
  | "session" => some (.flag .session)
  | "print-config" => some (.flag .printConfig)
  | "help" => some (.flag .help)
  | "version" => some (.flag .version)
  | _ => none

def shortName? : Char → Option Name
  | 'c' => some (.valued .config)
  | 'h' => some (.flag .help)
  | 'V' => some (.flag .version)
  | _ => none

/-- Gives an option its value. An option is given once, and the file needs a name. -/
def assign (o : Valued) (value : String) (opts : Options) : Except Usage Options :=
  match o with
  | .config =>
    if opts.config.isSome then .error .argumentConflict
    else if value.isEmpty then .error .invalidValue
    else .ok { opts with config := some value }
  | .logLevel =>
    if opts.logLevel.isSome then .error .argumentConflict
    else .ok { opts with logLevel := some value }

def raise (f : Flag) (opts : Options) : Except Usage Options :=
  match f with
  | .session =>
    if opts.session then .error .argumentConflict else .ok { opts with session := true }
  | .printConfig =>
    if opts.printConfig then .error .argumentConflict else .ok { opts with printConfig := true }
  | .help => .error .displayHelp
  | .version => .error .displayVersion

/-- What has been read: the options taken up, and the last one that waits to be, with its value if
it has got one. -/
structure Progress where
  options : Options
  pending : Option (Valued × Option String)

namespace Progress

def settle (p : Progress) : Except Usage Options :=
  match p.pending with
  | none => .ok p.options
  | some (_, none) => .error .invalidValue
  | some (o, some value) => p.options.assign o value

def await (o : Valued) (p : Progress) : Except Usage Progress :=
  p.settle.map fun opts => ⟨opts, some (o, none)⟩

def attach (o : Valued) (value : String) (p : Progress) : Except Usage Progress := do
  let opts ← p.settle
  return ⟨← opts.assign o value, none⟩

def flag (f : Flag) (p : Progress) : Except Usage Progress := do
  let opts ← p.settle
  return ⟨← opts.raise f, none⟩

/-- An argument that begins with two dashes, split at its first equals sign. -/
def long (name : String) (value : Option String) (p : Progress) : Except Usage Progress :=
  match longName? name, value with
  | some (.valued o), some value => p.attach o value
  | some (.valued o), none => p.await o
  | some (.flag _), some _ => .error .tooManyValues
  | some (.flag f), none => p.flag f
  | none, _ => .error .unknownArgument

/-- Letters behind one dash. Behind a letter that takes a value the rest is that value. -/
def short : List Char → Progress → Except Usage Progress
  | [], p => .ok p
  | c :: rest, p =>
    match shortName? c with
    | some (.valued o) =>
      match rest with
      | [] => p.await o
      | '=' :: value => p.attach o (String.ofList value)
      | value => p.attach o (String.ofList value)
    | some (.flag f) => (p.flag f).bind (short rest)
    | none => .error .unknownArgument

/-- An argument without a dash is the value of the option before it. -/
def word (value : String) (p : Progress) : Except Usage Progress :=
  match p.pending with
  | some (o, none) => .ok { p with pending := some (o, some value) }
  | _ => .error .unknownArgument

end Progress

/-- Reads arguments. No argument may stand behind a lone pair of dashes. -/
def readFrom : List String → Progress → Except Usage Options
  | [], p => p.settle
  | arg :: rest, p =>
    match arg.toList with
    | ['-', '-'] => if rest.isEmpty then p.settle else .error .unknownArgument
    | '-' :: '-' :: cs =>
      let name := cs.takeWhile fun c => c ≠ '='
      let value := match cs.dropWhile fun c => c ≠ '=' with
        | _ :: value => some (String.ofList value)
        | [] => none
      (p.long (String.ofList name) value).bind (readFrom rest)
    | '-' :: c :: cs => (p.short (c :: cs)).bind (readFrom rest)
    | _ => (p.word arg).bind (readFrom rest)

def read (args : List String) : Except Usage Options := readFrom args ⟨empty, none⟩

end Options

end FirmwareHost
