import Spellcast.CommandLine

/-!
# The program

Reads the files that the command line names, casts their spells and prints the report.
-/

namespace Spellcast.Main

def faultOf (problem : IO.Error) : Files.Fault :=
  match problem with
  | .noFileOrDirectory .. => .notFound
  | .inappropriateType .. => .isDirectory
  | _ => .other (toString problem)

def readFile (path : String) : IO (Except Files.Fault String) := do
  match ← (IO.FS.readBinFile path).toBaseIO with
  | .error problem => return .error (faultOf problem)
  | .ok bytes =>
    match String.fromUTF8? bytes with
    | some text => return .ok text
    | none => return .error .notText

/-- Reads some files ahead. Any other file counts as missing. -/
def readFiles (paths : List String) : IO (String → Except Files.Fault String) := do
  let table ← paths.mapM fun path => return (path, ← readFile path)
  return fun path => (table.lookup path).getD (.error .notFound)

@[noinline] def evaluate {α : Type} (compute : Unit → α) : IO α := return compute ()

def timed {α : Type} (compute : Unit → α) : IO (α × Nat) := do
  let start ← IO.monoNanosNow
  let result ← evaluate compute
  let stop ← IO.monoNanosNow
  return (result, stop - start)

end Spellcast.Main

def main (arguments : List String) : IO UInt32 := do
  let read ← Spellcast.Main.readFiles arguments
  let (shown, stage) := Spellcast.CommandLine.stage Spellcast.CommandLine.Filter.accepts read arguments
  shown.forM IO.println
  match stage with
  | .error failure =>
    failure.lines.forM IO.eprintln
    return 1
  | .ok stage =>
    let (performance, nanoseconds) ← Spellcast.Main.timed fun _ => stage.perform
    (performance.lines (Spellcast.CommandLine.elapsedText nanoseconds)).forM IO.println
    return 0
