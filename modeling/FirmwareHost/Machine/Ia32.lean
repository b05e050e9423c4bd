import FirmwareHost.Bytes

/-! The IA32 signal frame and the register snapshot taken from it. -/

namespace FirmwareHost.Ia32

/-- General registers in the order in which Linux saves them, then the floating point pointer, the
old signal mask and the fault address. -/
structure Frame where
  gs : UInt32
  fs : UInt32
  es : UInt32
  ds : UInt32
  edi : UInt32
  esi : UInt32
  ebp : UInt32
  esp : UInt32
  ebx : UInt32
  edx : UInt32
  ecx : UInt32
  eax : UInt32
  trapno : UInt32
  err : UInt32
  eip : UInt32
  cs : UInt32
  eflags : UInt32
  uesp : UInt32
  ss : UInt32
  fpregs : UInt32
  oldmask : UInt32
  cr2 : UInt32
  deriving DecidableEq, Repr, Inhabited

structure Snapshot where
  cr2 : UInt32
  eflags : UInt32
  eip : UInt32
  gs : UInt32
  fs : UInt32
  es : UInt32
  ds : UInt32
  cs : UInt32
  ss : UInt32
  edi : UInt32
  esi : UInt32
  ebp : UInt32
  esp : UInt32
  ebx : UInt32
  edx : UInt32
  ecx : UInt32
  eax : UInt32
  deriving DecidableEq, Repr, Inhabited

/-- Reads a frame from its words in memory order; missing words are 0. -/
def Frame.ofWords (words : List UInt64) : Frame :=
  { gs := (words.getD 0 0).toUInt32
    fs := (words.getD 1 0).toUInt32
    es := (words.getD 2 0).toUInt32
    ds := (words.getD 3 0).toUInt32
    edi := (words.getD 4 0).toUInt32
    esi := (words.getD 5 0).toUInt32
    ebp := (words.getD 6 0).toUInt32
    esp := (words.getD 7 0).toUInt32
    ebx := (words.getD 8 0).toUInt32
    edx := (words.getD 9 0).toUInt32
    ecx := (words.getD 10 0).toUInt32
    eax := (words.getD 11 0).toUInt32
    trapno := (words.getD 12 0).toUInt32
    err := (words.getD 13 0).toUInt32
    eip := (words.getD 14 0).toUInt32
    cs := (words.getD 15 0).toUInt32
    eflags := (words.getD 16 0).toUInt32
    uesp := (words.getD 17 0).toUInt32
    ss := (words.getD 18 0).toUInt32
    fpregs := (words.getD 19 0).toUInt32
    oldmask := (words.getD 20 0).toUInt32
    cr2 := (words.getD 21 0).toUInt32 }

def Frame.words (f : Frame) : List UInt64 :=
  [f.gs.toUInt64, f.fs.toUInt64, f.es.toUInt64, f.ds.toUInt64, f.edi.toUInt64, f.esi.toUInt64,
    f.ebp.toUInt64, f.esp.toUInt64, f.ebx.toUInt64, f.edx.toUInt64, f.ecx.toUInt64,
    f.eax.toUInt64, f.trapno.toUInt64, f.err.toUInt64, f.eip.toUInt64, f.cs.toUInt64,
    f.eflags.toUInt64, f.uesp.toUInt64, f.ss.toUInt64, f.fpregs.toUInt64, f.oldmask.toUInt64,
    f.cr2.toUInt64]

def Frame.capture (f : Frame) : Snapshot :=
  { cr2 := f.cr2
    eflags := f.eflags
    eip := f.eip
    gs := f.gs
    fs := f.fs
    es := f.es
    ds := f.ds
    cs := f.cs
    ss := f.ss
    edi := f.edi
    esi := f.esi
    ebp := f.ebp
    esp := f.esp
    ebx := f.ebx
    edx := f.edx
    ecx := f.ecx
    eax := f.eax }

def Snapshot.commit (s : Snapshot) (f : Frame) : Frame :=
  { f with
    cr2 := s.cr2
    eflags := s.eflags
    eip := s.eip
    gs := s.gs
    fs := s.fs
    es := s.es
    ds := s.ds
    cs := s.cs
    ss := s.ss
    edi := s.edi
    esi := s.esi
    ebp := s.ebp
    esp := s.esp
    ebx := s.ebx
    edx := s.edx
    ecx := s.ecx
    eax := s.eax }

namespace Snapshot

def zero : Snapshot :=
  ⟨0, 0, 0, 0, 0, 0, 0, 0, 0, 0, 0, 0, 0, 0, 0, 0, 0⟩

def programCounter (s : Snapshot) : UInt64 := s.eip.toUInt64

def setProgramCounter (s : Snapshot) (value : UInt64) : Snapshot := { s with eip := value.toUInt32 }

def stackPointer (s : Snapshot) : UInt64 := s.esp.toUInt64

def setReturnValue (s : Snapshot) (value : UInt64) : Snapshot := { s with eax := value.toUInt32 }

def registers (s : Snapshot) : List (String × UInt64) :=
  [("cr2", s.cr2.toUInt64), ("eflags", s.eflags.toUInt64), ("eip", s.eip.toUInt64),
    ("gs", s.gs.toUInt64), ("fs", s.fs.toUInt64), ("es", s.es.toUInt64), ("ds", s.ds.toUInt64),
    ("cs", s.cs.toUInt64), ("ss", s.ss.toUInt64), ("edi", s.edi.toUInt64),
    ("esi", s.esi.toUInt64), ("ebp", s.ebp.toUInt64), ("esp", s.esp.toUInt64),
    ("ebx", s.ebx.toUInt64), ("edx", s.edx.toUInt64), ("ecx", s.ecx.toUInt64),
    ("eax", s.eax.toUInt64)]

/-- Writes a register by name; no other name changes anything. -/
def setRegister (s : Snapshot) (name : String) (value : UInt64) : Snapshot :=
  match name with
  | "cr2" => { s with cr2 := value.toUInt32 }
  | "eflags" => { s with eflags := value.toUInt32 }
  | "eip" => { s with eip := value.toUInt32 }
  | "gs" => { s with gs := value.toUInt32 }
  | "fs" => { s with fs := value.toUInt32 }
  | "es" => { s with es := value.toUInt32 }
  | "ds" => { s with ds := value.toUInt32 }
  | "cs" => { s with cs := value.toUInt32 }
  | "ss" => { s with ss := value.toUInt32 }
  | "edi" => { s with edi := value.toUInt32 }
  | "esi" => { s with esi := value.toUInt32 }
  | "ebp" => { s with ebp := value.toUInt32 }
  | "esp" => { s with esp := value.toUInt32 }
  | "ebx" => { s with ebx := value.toUInt32 }
  | "edx" => { s with edx := value.toUInt32 }
  | "ecx" => { s with ecx := value.toUInt32 }
  | "eax" => { s with eax := value.toUInt32 }
  | _ => s

end Snapshot

end FirmwareHost.Ia32
