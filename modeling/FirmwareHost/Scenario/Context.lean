import FirmwareHost.Machine.Snapshot

/-! Scripts on one frame and a snapshot of it. -/

namespace FirmwareHost.Scenario

inductive ContextStep where
  | edit (e : Edit)
  | recapture
  | commit
  /-- Writes the snapshot into another frame, which is not kept. -/
  | commitTo (f : Frame)

inductive ContextResult where
  | snapshot (s : Snapshot)
  /-- How a commit ended, and the frame as it left it. -/
  | committed (r : Outcome Unit) (f : Frame)

/-- A frame that a failed commit leaves as it was. -/
def committed (s : Snapshot) (f : Frame) : ContextResult × Frame :=
  match s.commit f with
  | .ok f => (.committed (.ok ()) f, f)
  | .error e => (.committed (.error e) f, f)

def ContextStep.play (s : Snapshot) (f : Frame) : ContextStep → ContextResult × Snapshot × Frame
  | .edit e => (.snapshot (e.apply s), e.apply s, f)
  | .recapture => (.snapshot f.capture, f.capture, f)
  | .commit =>
    let (r, f) := committed s f
    (r, s, f)
  | .commitTo other => ((committed s other).1, s, f)

end FirmwareHost.Scenario
