import Shading.CommandLine.Run

/-!
# The command line

Reads the files, runs the command line on them, and writes what comes of it.
-/
namespace Shading.CommandLine

def readFile? (path : String) : IO (Option String) := do
  try return some (← IO.FS.readFile path)
  catch _ => return none

def pushWord (bytes : ByteArray) (w : UInt32) : ByteArray :=
  (((bytes.push w.toUInt8).push (w >>> 8).toUInt8).push (w >>> 16).toUInt8).push (w >>> 24).toUInt8

def Artifact.bytes : Artifact → ByteArray
  | text s => s.toUTF8
  | words ws => ws.foldl pushWord .empty

def writeFile (path : String) (a : Artifact) : IO Bool := do
  try
    IO.FS.writeBinFile path a.bytes
    return true
  catch _ => return false

def runFiles (i : Invocation) : IO Outcome := do
  let source ← readFile? i.input
  let config ← match i.config with
    | some path => readFile? path
    | none => pure none
  let attempt := i.attempt source config
  let wrote ← match attempt.result, i.output with
    | .ok artifact, some path => writeFile path artifact
    | _, _ => pure false
  return i.finish (fun _ => wrote) attempt

end Shading.CommandLine

open Shading.CommandLine in
def main (words : List String) : IO UInt32 := do
  let outcome ← match Invocation.ofWords words with
    | .error stop => pure stop.outcome
    | .ok i => runFiles i
  (← IO.getStderr).putStr outcome.messages
  if let some artifact := outcome.output then
    let out ← IO.getStdout
    out.write artifact.bytes
    out.flush
  return UInt32.ofNat outcome.exitCode
