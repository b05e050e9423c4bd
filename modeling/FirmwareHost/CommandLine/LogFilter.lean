/-! The text of a log filter: rules with commas between, each a level, a name, or a name and a level
with an equals sign between. A pattern may stand behind a slash. Faulty rules are reported and
otherwise ignored. -/

namespace FirmwareHost.LogFilter

/-- The blanks of Unicode. -/
def isBlank (c : Char) : Bool :=
  let n := c.toNat
  (9 ≤ n && n ≤ 13) || (0x2000 ≤ n && n ≤ 0x200A) ||
    [0x20, 0x85, 0xA0, 0x1680, 0x2028, 0x2029, 0x202F, 0x205F, 0x3000].contains n

def trim (s : String) : String :=
  String.ofList (((s.toList.dropWhile isBlank).reverse.dropWhile isBlank).reverse)

def levels : List String := ["off", "error", "warn", "info", "debug", "trace"]

/-- Whether a text names a level, in any case. -/
def isLevel (s : String) : Bool := levels.contains s.toLower

/-- What is quoted as the fault of a rule: the level that is none, or the whole rule if it has more
than two parts. -/
def fault? (rule : String) : Option String :=
  match rule.splitOn "=" with
  | [_] => none
  | [_, level] =>
    let level := trim level
    if level.isEmpty || isLevel level then none else some level
  | _ => some rule

def rules (s : String) : List String :=
  ((s.splitOn ",").map trim).filter fun rule => !rule.isEmpty

def quote (s : String) : String := "invalid logging spec '" ++ s ++ "'"

/-- The faults of a filter, in order. Patterns are not looked at. -/
def faults (filter : String) : List String :=
  match filter.splitOn "/" with
  | [] => []
  | [s] | [s, _] => ((rules s).filterMap fault?).map quote
  | _ => [quote filter ++ " (too many '/'s)"]

def warnings (filter : String) : List String :=
  (faults filter).map fun fault => "warning: " ++ fault ++ ", ignoring it"

end FirmwareHost.LogFilter
