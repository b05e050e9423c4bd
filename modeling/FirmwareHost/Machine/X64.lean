import FirmwareHost.Bytes

/-! The X64 signal frame and the register snapshot taken from it. Segment selectors share one word
of the frame, 16 bits each. -/

namespace FirmwareHost.X64

/-- General registers in the order in which Linux saves them. The word `selectors` holds cs in bits
15 to 0, gs in bits 31 to 16 and fs in bits 47 to 32. -/
structure Frame where
  r8 : UInt64
  r9 : UInt64
  r10 : UInt64
  r11 : UInt64
  r12 : UInt64
  r13 : UInt64
  r14 : UInt64
  r15 : UInt64
  rdi : UInt64
  rsi : UInt64
  rbp : UInt64
  rbx : UInt64
  rdx : UInt64
  rax : UInt64
  rcx : UInt64
  rsp : UInt64
  rip : UInt64
  eflags : UInt64
  selectors : UInt64
  err : UInt64
  trapno : UInt64
  oldmask : UInt64
  cr2 : UInt64
  deriving DecidableEq, Repr, Inhabited

structure Snapshot where
  cr2 : UInt64
  rflags : UInt64
  rip : UInt64
  cs : UInt64
  fs : UInt64
  gs : UInt64
  rdi : UInt64
  rsi : UInt64
  rbp : UInt64
  rsp : UInt64
  rbx : UInt64
  rdx : UInt64
  rcx : UInt64
  rax : UInt64
  r8 : UInt64
  r9 : UInt64
  r10 : UInt64
  r11 : UInt64
  r12 : UInt64
  r13 : UInt64
  r14 : UInt64
  r15 : UInt64
  deriving DecidableEq, Repr, Inhabited

def selectorMask : UInt64 := 0xFFFF

/-- Reads a frame from its words in memory order; missing words are 0. -/
def Frame.ofWords (words : List UInt64) : Frame :=
  { r8 := words.getD 0 0
    r9 := words.getD 1 0
    r10 := words.getD 2 0
    r11 := words.getD 3 0
    r12 := words.getD 4 0
    r13 := words.getD 5 0
    r14 := words.getD 6 0
    r15 := words.getD 7 0
    rdi := words.getD 8 0
    rsi := words.getD 9 0
    rbp := words.getD 10 0
    rbx := words.getD 11 0
    rdx := words.getD 12 0
    rax := words.getD 13 0
    rcx := words.getD 14 0
    rsp := words.getD 15 0
    rip := words.getD 16 0
    eflags := words.getD 17 0
    selectors := words.getD 18 0
    err := words.getD 19 0
    trapno := words.getD 20 0
    oldmask := words.getD 21 0
    cr2 := words.getD 22 0 }

def Frame.words (f : Frame) : List UInt64 :=
  [f.r8, f.r9, f.r10, f.r11, f.r12, f.r13, f.r14, f.r15, f.rdi, f.rsi, f.rbp, f.rbx, f.rdx,
    f.rax, f.rcx, f.rsp, f.rip, f.eflags, f.selectors, f.err, f.trapno, f.oldmask, f.cr2]

def Frame.capture (f : Frame) : Snapshot :=
  { cr2 := f.cr2
    rflags := f.eflags
    rip := f.rip
    cs := f.selectors &&& selectorMask
    fs := (f.selectors >>> 32) &&& selectorMask
    gs := (f.selectors >>> 16) &&& selectorMask
    rdi := f.rdi
    rsi := f.rsi
    rbp := f.rbp
    rsp := f.rsp
    rbx := f.rbx
    rdx := f.rdx
    rcx := f.rcx
    rax := f.rax
    r8 := f.r8
    r9 := f.r9
    r10 := f.r10
    r11 := f.r11
    r12 := f.r12
    r13 := f.r13
    r14 := f.r14
    r15 := f.r15 }

/-- The bits of the selector word that hold no selector. -/
def reservedMask : UInt64 := 0xFFFF000000000000

/-- The selectors go into their windows and the reserved bits stay as they were. -/
def packSelectors (old : UInt64) (s : Snapshot) : UInt64 :=
  (old &&& reservedMask) ||| (s.cs &&& selectorMask) ||| ((s.gs &&& selectorMask) <<< 16) |||
    ((s.fs &&& selectorMask) <<< 32)

def Snapshot.commit (s : Snapshot) (f : Frame) : Frame :=
  { f with
    cr2 := s.cr2
    eflags := s.rflags
    rip := s.rip
    selectors := packSelectors f.selectors s
    rdi := s.rdi
    rsi := s.rsi
    rbp := s.rbp
    rsp := s.rsp
    rbx := s.rbx
    rdx := s.rdx
    rcx := s.rcx
    rax := s.rax
    r8 := s.r8
    r9 := s.r9
    r10 := s.r10
    r11 := s.r11
    r12 := s.r12
    r13 := s.r13
    r14 := s.r14
    r15 := s.r15 }

namespace Snapshot

def zero : Snapshot :=
  ⟨0, 0, 0, 0, 0, 0, 0, 0, 0, 0, 0, 0, 0, 0, 0, 0, 0, 0, 0, 0, 0, 0⟩

def programCounter (s : Snapshot) : UInt64 := s.rip

def setProgramCounter (s : Snapshot) (value : UInt64) : Snapshot := { s with rip := value }

def stackPointer (s : Snapshot) : UInt64 := s.rsp

def setReturnValue (s : Snapshot) (value : UInt64) : Snapshot := { s with rax := value }

def registers (s : Snapshot) : List (String × UInt64) :=
  [("cr2", s.cr2), ("rflags", s.rflags), ("rip", s.rip), ("cs", s.cs), ("fs", s.fs),
    ("gs", s.gs), ("rdi", s.rdi), ("rsi", s.rsi), ("rbp", s.rbp), ("rsp", s.rsp), ("rbx", s.rbx),
    ("rdx", s.rdx), ("rcx", s.rcx), ("rax", s.rax), ("r8", s.r8), ("r9", s.r9), ("r10", s.r10),
    ("r11", s.r11), ("r12", s.r12), ("r13", s.r13), ("r14", s.r14), ("r15", s.r15)]

/-- Writes a register by name; no other name changes anything. -/
def setRegister (s : Snapshot) (name : String) (value : UInt64) : Snapshot :=
  match name with
  | "cr2" => { s with cr2 := value }
  | "rflags" => { s with rflags := value }
  | "rip" => { s with rip := value }
  | "cs" => { s with cs := value }
  | "fs" => { s with fs := value }
  | "gs" => { s with gs := value }
  | "rdi" => { s with rdi := value }
  | "rsi" => { s with rsi := value }
  | "rbp" => { s with rbp := value }
  | "rsp" => { s with rsp := value }
  | "rbx" => { s with rbx := value }
  | "rdx" => { s with rdx := value }
  | "rcx" => { s with rcx := value }
  | "rax" => { s with rax := value }
  | "r8" => { s with r8 := value }
  | "r9" => { s with r9 := value }
  | "r10" => { s with r10 := value }
  | "r11" => { s with r11 := value }
  | "r12" => { s with r12 := value }
  | "r13" => { s with r13 := value }
  | "r14" => { s with r14 := value }
  | "r15" => { s with r15 := value }
  | _ => s

end Snapshot

end FirmwareHost.X64
