import FirmwareHost.Config.Settings
import FirmwareHost.Text.Utf8

/-! A configuration read from a file of a file system. -/

namespace FirmwareHost

/-- A file system as its readers see it: the bytes at a path, or why they cannot be read. -/
abbrev FileReader := String → Except String Bytes

namespace Config

def load (read : FileReader) (path : String) : Except ConfigError Config :=
  match read path with
  | .error cause => .error (.unreadable path cause)
  | .ok bytes =>
    if Utf8.isValid bytes then parse (Utf8.decode bytes)
    else .error (.unreadable path "stream did not contain valid UTF-8")

end Config

end FirmwareHost
