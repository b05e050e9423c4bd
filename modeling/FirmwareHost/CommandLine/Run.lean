import FirmwareHost.CommandLine.LogFilter
import FirmwareHost.CommandLine.Options
import FirmwareHost.Config.File

/-! A run of the program: the configuration that options and file make together, and what is written
for it. -/

namespace FirmwareHost

/-- A failure to find the configuration, with the file that was being loaded. -/
structure ResolveError where
  loading : Option String
  cause : ConfigError

/-- The file's configuration or the defaults, with what the options override. -/
def Options.resolve (read : FileReader) (o : Options) : Except ResolveError Config := do
  let base ← match o.config with
    | some path =>
      match Config.load read path with
      | .ok c => pure c
      | .error e => throw ⟨some ("loading " ++ path), e⟩
    | none => pure Config.defaults
  let c := { base with
    bus := if o.session then .session else base.bus
    logLevel := o.logLevel.getD base.logLevel }
  match c.validate with
  | .ok () => return c
  | .error e => throw ⟨none, .invalid e⟩

/-- The texts of an error and of what caused it. An unreadable file shows its cause once in its own
text and once as its cause. -/
def ConfigError.chain : ConfigError → List String
  | .unreadable path cause => ["failed to read " ++ path ++ ": " ++ cause, cause]
  | .unparsable _ => ["failed to parse config"]
  | .invalid e => ["invalid config: " ++ e.message]

def ResolveError.chain (e : ResolveError) : List String := e.loading.toList ++ e.cause.chain

structure Exit where
  code : Nat
  output : String
  /-- Warnings and then the failure, each written on a line of its own beside the output. -/
  reports : List String
  deriving DecidableEq, Repr

namespace Exit

def failed (chain : List String) : Exit :=
  ⟨1, "", ["Error: " ++ String.intercalate ": " chain]⟩

def precede (reports : List String) (e : Exit) : Exit := { e with reports := reports ++ e.reports }

end Exit

def versionText : String := "emu-prmd 0.1.0\n"

def helpText : String :=
  "PRM Dispatch mailbox service for the hosted emulator\n" ++
  "\n" ++
  "Usage: emu-prmd [OPTIONS]\n" ++
  "\n" ++
  "Options:\n" ++
  "  -c, --config <FILE>       TOML configuration file\n" ++
  "      --session             Serve on the session bus instead of the system bus\n" ++
  "      --log-level <FILTER>  Default log filter when RUST_LOG is unset\n" ++
  "      --print-config        Print the effective configuration and exit\n" ++
  "  -h, --help                Print help\n" ++
  "  -V, --version             Print version\n"

/-- This build has no bus to serve on. -/
def noBusText : String :=
  "emu-prmd was built without D-Bus support; rebuild with `--features dbus`"

def runOptions (read : FileReader) (o : Options) : Exit :=
  match o.resolve read with
  | .error e => .failed e.chain
  | .ok c =>
    Exit.precede (LogFilter.warnings c.logLevel) <|
      if o.printConfig then
        match c.print with
        | .ok text => ⟨0, text, []⟩
        | .error e => .failed e.chain
      else .failed [noBusText]

def run (read : FileReader) (args : List String) : Exit :=
  match Options.read args with
  | .ok o => runOptions read o
  | .error .displayHelp => ⟨0, helpText, []⟩
  | .error .displayVersion => ⟨0, versionText, []⟩
  | .error usage => ⟨usage.exitCode, "", []⟩

end FirmwareHost
