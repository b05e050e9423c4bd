import FirmwareHost.Bytes

/-! The ARM signal frame and the register snapshot taken from it. The frame and intra-procedure
registers appear in a snapshot as r11 and r12. -/

namespace FirmwareHost.Arm

/-- The words of a Linux signal context in memory order. -/
structure Frame where
  trapNo : UInt32
  errorCode : UInt32
  oldmask : UInt32
  r0 : UInt32
  r1 : UInt32
  r2 : UInt32
  r3 : UInt32
  r4 : UInt32
  r5 : UInt32
  r6 : UInt32
  r7 : UInt32
  r8 : UInt32
  r9 : UInt32
  r10 : UInt32
  fp : UInt32
  ip : UInt32
  sp : UInt32
  lr : UInt32
  pc : UInt32
  cpsr : UInt32
  faultAddress : UInt32
  deriving DecidableEq, Repr, Inhabited

structure Snapshot where
  r0 : UInt32
  r1 : UInt32
  r2 : UInt32
  r3 : UInt32
  r4 : UInt32
  r5 : UInt32
  r6 : UInt32
  r7 : UInt32
  r8 : UInt32
  r9 : UInt32
  r10 : UInt32
  r11 : UInt32
  r12 : UInt32
  sp : UInt32
  lr : UInt32
  pc : UInt32
  cpsr : UInt32
  deriving DecidableEq, Repr, Inhabited

/-- Reads a frame from its words in memory order; missing words are 0. -/
def Frame.ofWords (words : List UInt64) : Frame :=
  { trapNo := (words.getD 0 0).toUInt32
    errorCode := (words.getD 1 0).toUInt32
    oldmask := (words.getD 2 0).toUInt32
    r0 := (words.getD 3 0).toUInt32
    r1 := (words.getD 4 0).toUInt32
    r2 := (words.getD 5 0).toUInt32
    r3 := (words.getD 6 0).toUInt32
    r4 := (words.getD 7 0).toUInt32
    r5 := (words.getD 8 0).toUInt32
    r6 := (words.getD 9 0).toUInt32
    r7 := (words.getD 10 0).toUInt32
    r8 := (words.getD 11 0).toUInt32
    r9 := (words.getD 12 0).toUInt32
    r10 := (words.getD 13 0).toUInt32
    fp := (words.getD 14 0).toUInt32
    ip := (words.getD 15 0).toUInt32
    sp := (words.getD 16 0).toUInt32
    lr := (words.getD 17 0).toUInt32
    pc := (words.getD 18 0).toUInt32
    cpsr := (words.getD 19 0).toUInt32
    faultAddress := (words.getD 20 0).toUInt32 }

def Frame.words (f : Frame) : List UInt64 :=
  [f.trapNo.toUInt64, f.errorCode.toUInt64, f.oldmask.toUInt64, f.r0.toUInt64, f.r1.toUInt64,
    f.r2.toUInt64, f.r3.toUInt64, f.r4.toUInt64, f.r5.toUInt64, f.r6.toUInt64, f.r7.toUInt64,
    f.r8.toUInt64, f.r9.toUInt64, f.r10.toUInt64, f.fp.toUInt64, f.ip.toUInt64, f.sp.toUInt64,
    f.lr.toUInt64, f.pc.toUInt64, f.cpsr.toUInt64, f.faultAddress.toUInt64]

def Frame.capture (f : Frame) : Snapshot :=
  { r0 := f.r0
    r1 := f.r1
    r2 := f.r2
    r3 := f.r3
    r4 := f.r4
    r5 := f.r5
    r6 := f.r6
    r7 := f.r7
    r8 := f.r8
    r9 := f.r9
    r10 := f.r10
    r11 := f.fp
    r12 := f.ip
    sp := f.sp
    lr := f.lr
    pc := f.pc
    cpsr := f.cpsr }

def Snapshot.commit (s : Snapshot) (f : Frame) : Frame :=
  { f with
    r0 := s.r0
    r1 := s.r1
    r2 := s.r2
    r3 := s.r3
    r4 := s.r4
    r5 := s.r5
    r6 := s.r6
    r7 := s.r7
    r8 := s.r8
    r9 := s.r9
    r10 := s.r10
    fp := s.r11
    ip := s.r12
    sp := s.sp
    lr := s.lr
    pc := s.pc
    cpsr := s.cpsr }

namespace Snapshot

def zero : Snapshot :=
  ⟨0, 0, 0, 0, 0, 0, 0, 0, 0, 0, 0, 0, 0, 0, 0, 0, 0⟩

def programCounter (s : Snapshot) : UInt64 := s.pc.toUInt64

def setProgramCounter (s : Snapshot) (value : UInt64) : Snapshot := { s with pc := value.toUInt32 }

def stackPointer (s : Snapshot) : UInt64 := s.sp.toUInt64

def setReturnValue (s : Snapshot) (value : UInt64) : Snapshot := { s with r0 := value.toUInt32 }

def registers (s : Snapshot) : List (String × UInt64) :=
  [("r0", s.r0.toUInt64), ("r1", s.r1.toUInt64), ("r2", s.r2.toUInt64), ("r3", s.r3.toUInt64),
    ("r4", s.r4.toUInt64), ("r5", s.r5.toUInt64), ("r6", s.r6.toUInt64), ("r7", s.r7.toUInt64),
    ("r8", s.r8.toUInt64), ("r9", s.r9.toUInt64), ("r10", s.r10.toUInt64),
    ("r11", s.r11.toUInt64), ("r12", s.r12.toUInt64), ("sp", s.sp.toUInt64),
    ("lr", s.lr.toUInt64), ("pc", s.pc.toUInt64), ("cpsr", s.cpsr.toUInt64)]

/-- Writes a register by name; no other name changes anything. -/
def setRegister (s : Snapshot) (name : String) (value : UInt64) : Snapshot :=
  match name with
  | "r0" => { s with r0 := value.toUInt32 }
  | "r1" => { s with r1 := value.toUInt32 }
  | "r2" => { s with r2 := value.toUInt32 }
  | "r3" => { s with r3 := value.toUInt32 }
  | "r4" => { s with r4 := value.toUInt32 }
  | "r5" => { s with r5 := value.toUInt32 }
  | "r6" => { s with r6 := value.toUInt32 }
  | "r7" => { s with r7 := value.toUInt32 }
  | "r8" => { s with r8 := value.toUInt32 }
  | "r9" => { s with r9 := value.toUInt32 }
  | "r10" => { s with r10 := value.toUInt32 }
  | "r11" => { s with r11 := value.toUInt32 }
  | "r12" => { s with r12 := value.toUInt32 }
  | "sp" => { s with sp := value.toUInt32 }
  | "lr" => { s with lr := value.toUInt32 }
  | "pc" => { s with pc := value.toUInt32 }
  | "cpsr" => { s with cpsr := value.toUInt32 }
  | _ => s

end Snapshot

end FirmwareHost.Arm
