import Lifecycle.Storage.FileSystem
import Lifecycle.Text.Lines
/-!
A tree of files and folders. Paths stay inside the root. A file is replaced by writing a second one
beside it and putting that in its place; if any step on the way is refused, be it halfway through, the
second file is removed again. -/

namespace Lifecycle

/-- The steps of replacing a file, each of which the system may refuse. -/
inductive WriteStep where
  | folder | temporary | content | replacement
  deriving DecidableEq, Repr

structure Disk where
  /-- The root as messages name it. -/
  root : String
  /-- The most bytes that a path below the root can have. -/
  room : Nat
  files : Keyed (List String) String
  /-- Folders that were made; those that they lie in are there as well. -/
  folders : List (List String)
  /-- The steps that the system refuses, with how much of each is done by then. -/
  refused : Keyed WriteStep Nat
  deriving DecidableEq, Repr

namespace Disk

/-- The most bytes that a whole path can have. -/
def pathLimit : Nat := 4095

/-- Nothing but a root, from which paths are led on with a slash. -/
def empty (root : String) : Disk := ⟨root, pathLimit - 1 - root.utf8ByteSize, [], [], []⟩

/-- Why the system refuses to work with a path. -/
inductive Refusal where
  /-- Something is there already. -/
  | taken
  | noFolder
  | folder
  | tooLong
  deriving DecidableEq, Repr

/-- How the system words a refusal. -/
def Refusal.text : Refusal → String
  | .taken => "[Errno 17] File exists"
  | .noFolder => "[Errno 20] Not a directory"
  | .folder => "[Errno 21] Is a directory"
  | .tooLong => "[Errno 36] File name too long"

/-- What a path leads to; the way is barred by a file where a folder is needed, and by names that
are too long. -/
inductive Found where
  | file (text : String)
  | folder
  | missing
  | barred (why : Refusal)
  deriving DecidableEq, Repr

/-- The parts of a path: single dots and repeated slashes do not count. -/
def partsOf (path : String) : List String :=
  (path.splitToList (· = '/')).filter fun part => part ≠ "" && part ≠ "."

def isAbsolute (path : String) : Bool := path.toList.head? = some '/'

/-- The parts of a path that stays inside the root. -/
def resolve (d : Disk) (path : String) : Except Fault (List String) :=
  if isAbsolute path || (partsOf path).contains ".." then
    .error (.badValue s!"path must stay inside {d.root}: {path}")
  else .ok (partsOf path)

def isFolder (d : Disk) (place : List String) : Bool :=
  place.isEmpty || d.folders.any place.isPrefixOf

/-- The most bytes that a name in a folder can have. -/
def nameLimit : Nat := 255

def pathSize (place : List String) : Nat := ("/".intercalate place).utf8ByteSize

/-- What makes the step after the first `n` parts of a way impossible. -/
def obstacleAt (d : Disk) (place : List String) (n : Nat) : Option Refusal :=
  if Keyed.has d.files (place.take n) then some .noFolder
  else if d.isFolder (place.take n) &&
      (place.drop n).head?.any fun part => nameLimit < part.utf8ByteSize then some .tooLong
  else none

def find (d : Disk) (place : List String) : Found :=
  match Keyed.find? d.files place with
  | some text => .file text
  | none =>
    if d.isFolder place then .folder
    else if d.room < pathSize place then .barred .tooLong
    else match (List.range place.length).findSome? (d.obstacleAt place) with
      | some why => .barred why
      | none => .missing

def refuse {α : Type} (d : Disk) (place : List String) (why : Refusal) : Except Fault α :=
  .error (.system (why.text ++ ": " ++ Text.quoted ("/".intercalate (d.root :: place))))

def hasNull (place : List String) : Bool := place.any fun part => part.toList.contains '\x00'

/-- A path with the null character in it names nothing. -/
def named (place : List String) : Except Fault Unit :=
  if hasNull place then .error (.badValue "embedded null byte") else .ok ()

def read (path : String) : Attempt Disk String := do
  let d ← get
  let place ← Attempt.ofExcept (d.resolve path)
  Attempt.ofExcept (named place)
  match d.find place with
  | .file text => return String.ofList (Text.unifyNewlines text.toList)
  | .missing => throw (.missingFile path)
  | .folder => Attempt.ofExcept (d.refuse place .folder)
  | .barred why => Attempt.ofExcept (d.refuse place why)

/-- Whether there is a file at a path. -/
def holds (path : String) : Attempt Disk Bool := do
  let d ← get
  let place ← Attempt.ofExcept (d.resolve path)
  if hasNull place then return false
  match d.find place with
  | .file _ => return true
  | .barred .tooLong => Attempt.ofExcept (d.refuse place .tooLong)
  | _ => return false

def remove (path : String) : Attempt Disk Unit := do
  let d ← get
  let place ← Attempt.ofExcept (d.resolve path)
  Attempt.ofExcept (named place)
  match d.find place with
  | .file _ => set { d with files := Keyed.erase d.files place }
  | .missing => throw (.missingFile path)
  | .folder => Attempt.ofExcept (d.refuse place .folder)
  | .barred why => Attempt.ofExcept (d.refuse place why)

/-- One step of replacing a file; `part` is what it leaves if it is refused after so much of it. -/
def step (kind : WriteStep) (place : List String) (part : Nat → Disk → Disk)
    (change : Disk → Except Fault Disk) : Attempt Disk Unit := fun d =>
  match Keyed.find? d.refused kind with
  | some done => (.error (.system (Text.quoted ("/".intercalate place))), part done d)
  | none =>
    match change d with
    | .ok changed => (.ok (), changed)
    | .error fault => (.error fault, d)

/-- What a step leaves that happens as a whole or not at all. -/
def untouched (_done : Nat) (d : Disk) : Disk := d

def addFolder (place : List String) (d : Disk) : Disk := { d with folders := d.folders ++ [place] }

def putFile (place : List String) (text : String) (d : Disk) : Disk :=
  { d with files := Keyed.put d.files place text }

def dropFile (place : List String) (d : Disk) : Disk :=
  { d with files := Keyed.erase d.files place }

/-- How many folders inside each other can be made at a time. -/
def chainLimit : Nat := 988

/-- How many of the folders on a way are not there yet. -/
def unmade (d : Disk) (place : List String) : Nat :=
  (List.range place.length).countP fun n => !d.isFolder (place.take (n + 1))

/-- Makes a folder and those that it lies in, as far as their names go. -/
def makeFolders (place : List String) : Attempt Disk Unit := do
  let d ← get
  match d.find place with
  | .folder => return
  | .file _ => Attempt.ofExcept (d.refuse place .taken)
  | .barred why => Attempt.ofExcept (d.refuse place why)
  | .missing =>
    if chainLimit < d.unmade place then throw .tooManySteps
    let named := place.takeWhile fun part => part.utf8ByteSize ≤ nameLimit
    step .folder named (fun done => addFolder (named.take done)) fun d => .ok (addFolder named d)
    if named.length < place.length then
      Attempt.ofExcept (d.refuse (place.take (named.length + 1)) .tooLong)

/-- How a name ends, from its last point on; a point that stands first or last does not count. -/
def ending (name : String) : String :=
  let tail := (name.toList.reverse.takeWhile (· ≠ '.')).reverse
  let front := name.length - tail.length
  if 1 < front && !tail.isEmpty then String.ofList ('.' :: tail) else ""

/-- How many bytes the name of a second file takes up before its ending. -/
def markSize : Nat := 22

/-- A second file is named by a mark that is longer than any name in use or asked for. -/
def freshName (d : Disk) (place : List String) : String :=
  let used := (place :: (Keyed.keys d.files ++ d.folders)).map fun way =>
    (way.map String.length).foldl Nat.add 0
  ".tmp_" ++ String.ofList (List.replicate (used.foldl Nat.max 0) '_')

/-- A second file ends as the first does, for which there has to be room in its name and its path. -/
def roomBeside (place : List String) (d : Disk) : Except Fault Unit :=
  let size := markSize + ((place.getLast?.map ending).getD "").utf8ByteSize
  if nameLimit < size || d.room < pathSize place.dropLast + 1 + size then
    d.refuse place .tooLong
  else .ok ()

/-- Puts a file in the place of another, or where nothing was. -/
def replace (source target : List String) (d : Disk) : Except Fault Disk :=
  match d.find target, Keyed.find? d.files source with
  | .folder, _ => d.refuse target .folder
  | .barred why, _ => d.refuse target why
  | _, some text => .ok { d with files := Keyed.put (Keyed.erase d.files source) target text }
  | _, none => .error (.missingFile ("/".intercalate source))

/-- So many characters of a text. -/
def beginning (text : String) (count : Nat) : String := String.ofList (text.toList.take count)

/-- Gives up the second file when a step after its creation fails. -/
def orDrop (temporary : List String) (work : Attempt Disk Unit) : Attempt Disk Unit := do
  try work
  catch fault =>
    modify (dropFile temporary)
    throw fault

def write (path text : String) : Attempt Disk Unit := do
  let place ← Attempt.ofExcept ((← get).resolve path)
  Attempt.ofExcept (named place.dropLast)
  makeFolders place.dropLast
  Attempt.ofExcept (roomBeside place (← get))
  let temporary := place.dropLast ++ [(← get).freshName place]
  step .temporary temporary untouched fun d => .ok (putFile temporary "" d)
  orDrop temporary do
    step .content temporary (fun done => putFile temporary (beginning text done))
      fun d => .ok (putFile temporary text d)
    Attempt.ofExcept (named place)
    step .replacement place untouched (replace temporary place)

instance : FileSystem Disk := ⟨read, write, holds, remove⟩

def text (d : Disk) : String := s!"LocalFileSystem({Text.quoted d.root})"

/-- The paths of all files. -/
def paths (d : Disk) : List String := (Keyed.keys d.files).map fun place => "/".intercalate place

end Disk

end Lifecycle
