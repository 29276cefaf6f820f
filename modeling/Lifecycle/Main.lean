import Lifecycle.Console.Run
import Lifecycle.Types.BuiltIn
import Std.Time.Format
/-!
The program: reads the files that a command can touch, runs the command on them, and writes back
those that it changed. -/

namespace Lifecycle.Console

def locate (d : Disk) (place : List String) : String := "/".intercalate (d.root :: place)

/-- What the system has at a place whose folder is known. -/
def look (d : Disk) (place : List String) : IO Disk := do
  match ← (IO.FS.readFile (locate d place)).toBaseIO with
  | .ok text => return { d with files := Keyed.put d.files place text }
  | .error (.noFileOrDirectory ..) => return d
  | .error _ => return { d with folders := d.folders ++ [place] }

/-- Looks at every place on a way, as long as it leads through folders. -/
def lookAlong (d : Disk) (place : List String) : IO Disk :=
  (List.range place.length).foldlM (fun d n =>
    if d.isFolder (place.take n) then look d (place.take (n + 1)) else pure d) d

/-- The settings and the document that they point to. -/
def readDisk (root : String) : IO Disk := do
  let d ← lookAlong (Disk.empty root) [Settings.fileName]
  let file := Keyed.find? d.files [Settings.fileName]
  match (Settings.statePath file Settings.unread).1 with
  | .ok path => lookAlong d (Disk.partsOf path)
  | .error _ => return d

def storeFile (d : Disk) (place : List String) (text : String) : IO Unit := do
  IO.FS.createDirAll (locate d place.dropLast)
  let temporary := locate d (place.dropLast ++ [d.freshName place])
  IO.FS.writeFile temporary text
  IO.FS.rename temporary (locate d place)

/-- Makes the system's files those of `after` where they differ from those of `before`. -/
def writeDisk (before after : Disk) : IO Unit := do
  for (place, text) in after.files do
    if Keyed.find? before.files place != some text then storeFile after place text
  for (place, _) in before.files do
    if !Keyed.has after.files place then IO.FS.removeFile (locate before place)

def clock : IO Timestamp := do
  let now ← Std.Time.PlainDateTime.now
  return {
    year := now.year.toNat
    month := now.month.val.toNat
    day := now.day.val.toNat
    hour := now.hour.val.toNat
    minute := now.minute.val.toNat
    second := now.second.val.toNat
    micro := now.nanosecond.val.toNat / 1000
    offset := none }

/-- The folder that holds a project's files. -/
def folderOf (words : List String) : String :=
  match mainGrammar.scan none words .empty with
  | .ok a => (a.value? "root").getD "." ++ "/.phasekit"
  | .error _ => "./.phasekit"

def program (words : List String) : IO UInt32 := do
  let before ← readDisk (folderOf words)
  let (outcome, after, _) := run ⟨.builtIn, ← clock⟩ words before []
  IO.print outcome.out
  IO.eprint outcome.err
  if let some fault := outcome.escaped then IO.eprintln fault.message
  writeDisk before after
  return outcome.exit.toUInt32

end Lifecycle.Console

def main (words : List String) : IO UInt32 := Lifecycle.Console.program words
