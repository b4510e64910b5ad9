import RegionNet.Simulation
import Std.Time.DateTime.Timestamp

/-!
The program on the files and the clock of the machine.
-/

namespace RegionNet.Program

/-- What opens but does not read is a directory. -/
def readHandle (handle : IO.FS.Handle) : IO FileContent := do
  try
    return .file (← handle.readBinToEnd)
  catch _ => return .directory

def readFile (path : String) : IO FileContent := do
  try
    readHandle (← IO.FS.Handle.mk path .read)
  catch _ => return .missing

def writeFile (path content : String) : IO Bool := do
  try
    IO.FS.writeFile path content
    return true
  catch _ => return false

def files : Files IO := ⟨readFile, writeFile⟩

def milliseconds (d : Duration) : Timestamp :=
  Int64.ofNat (d.toNanoseconds / 1000000)

def now : IO Timestamp := do
  return Int64.ofInt (← Std.Time.Timestamp.now).toMillisecondsSinceUnixEpoch.val

end RegionNet.Program

open RegionNet

def main (arguments : List String) : IO UInt32 := do
  let exit ← Simulation.perform Program.files ⟨← Program.now, Program.milliseconds⟩ arguments
  IO.print exit.output
  if !exit.complaint.isEmpty then IO.eprintln exit.complaint
  return exit.code.toUInt32
