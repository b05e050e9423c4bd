import FirmwareHost.Config.File

/-! A directory that holds a fixed set of files, as seen by a program that runs in it. -/

namespace FirmwareHost.Scenario

abbrev FileSet := List (List String × Bytes)

inductive FileError where
  | notFound
  | notDirectory
  | isDirectory
  | nameTooLong
  | zeroByte
  deriving DecidableEq, Repr

def FileError.text : FileError → String
  | .notFound => "No such file or directory (os error 2)"
  | .notDirectory => "Not a directory (os error 20)"
  | .isDirectory => "Is a directory (os error 21)"
  | .nameTooLong => "File name too long (os error 36)"
  | .zeroByte => "file name contained an unexpected NUL byte"

inductive Place where
  | inside (path : List String)
  /-- Above the directory. Nothing is known there but directories. -/
  | outside
  deriving DecidableEq, Repr

namespace FileSet

def file? (files : FileSet) (path : List String) : Option Bytes := files.lookup path

def isDirectory (files : FileSet) (path : List String) : Bool :=
  path.isEmpty || files.any fun (p, _) => path.isPrefixOf p && path.length < p.length

def nameLimit : Nat := 255

def pathLimit : Nat := 4095

/-- The place that a name in a directory leads to. A name that is too long is in no directory, which
shows once the directory is known to be one. -/
def enter (files : FileSet) (name : String) : Place → Except FileError Place
  | .inside path =>
    if (files.file? path).isSome then .error .notDirectory
    else if !files.isDirectory path then .error .notFound
    else if name.isEmpty || name = "." then .ok (.inside path)
    else if name = ".." then .ok (if path.isEmpty then .outside else .inside path.dropLast)
    else if nameLimit < name.utf8ByteSize then .error .nameTooLong
    else .ok (.inside (path ++ [name]))
  | .outside =>
    if name.isEmpty || name = "." || name = ".." then .ok .outside
    else .error (if nameLimit < name.utf8ByteSize then .nameTooLong else .notFound)

def contents (files : FileSet) : Place → Except FileError Bytes
  | .outside => .error .isDirectory
  | .inside path =>
    match files.file? path with
    | some bytes => .ok bytes
    | none => .error (if files.isDirectory path then .isDirectory else .notFound)

def readPath (files : FileSet) (path : String) : Except FileError Bytes := do
  if path.isEmpty then throw .notFound
  if path.toList.contains '\x00' then throw .zeroByte
  if pathLimit < path.utf8ByteSize then throw .nameTooLong
  let start := if path.toList.head? = some '/' then Place.outside else .inside []
  let place ← (path.splitOn "/").foldlM (fun place name => files.enter name place) start
  files.contents place

def reader (files : FileSet) : FileReader := fun path =>
  match files.readPath path with
  | .ok bytes => .ok bytes
  | .error e => .error e.text

end FileSet

end FirmwareHost.Scenario
