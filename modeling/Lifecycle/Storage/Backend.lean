import Lifecycle.Document.Dump
import Lifecycle.Document.Reader
import Lifecycle.Storage.FileSystem
/-!
Where one project's document is kept: in memory as it is, or in a file as JSON text. A failure
leaves what is kept as it was. -/

namespace Lifecycle

class Backend (σ : Type) where
  /-- What is kept; the time given is for fields that the text leaves out. -/
  load : Timestamp → Attempt σ Document
  save : Document → Attempt σ Unit
  holds : Attempt σ Bool
  delete : Attempt σ Unit

/-- Keeps a copy of the document and counts how often one was kept. -/
structure MemoryStore where
  held : Option Document
  saves : Nat
  deriving Repr

namespace MemoryStore

def missing : Fault := .noState "in memory"

def load (_now : Timestamp) : Attempt MemoryStore Document := do
  match (← get).held with
  | some d => return d
  | none => throw missing

def save (d : Document) : Attempt MemoryStore Unit := do
  Attempt.ofExcept d.toValue.checkCopy
  modify fun m => ⟨some d, m.saves + 1⟩

def holds : Attempt MemoryStore Bool := do
  return (← get).held.isSome

def delete : Attempt MemoryStore Unit := do
  if (← get).held.isSome then modify fun m => { m with held := none }
  else throw missing

instance : Backend MemoryStore := ⟨load, save, holds, delete⟩

end MemoryStore

/-- Keeps the document as text in a file. -/
structure FileStore (φ : Type) where
  files : φ
  path : String
  deriving DecidableEq, Repr

namespace FileStore

/-- Where the document is kept if nothing else is said. -/
def defaultPath : String := "project/state.json"

/-- A missing file means that there is no project; other refusals of the system get an account of
what was tried. -/
def account (path verb : String) : Fault → Fault
  | .missingFile _ => .noState s!"at {path}"
  | .system text => .storage s!"Failed to {verb} {path}: {text}"
  | fault => fault

/-- Accounts for writing and looking, where a missing file is a refusal like any other. -/
def accountAll (path verb : String) : Fault → Fault
  | .missingFile text | .system text => .storage s!"Failed to {verb} {path}: {text}"
  | fault => fault

/-- Reads a document from its stored text. -/
def decode (path : String) (now : Timestamp) (text : String) : Except Fault Document :=
  match Json.parse text with
  | .error (.syntactic fault) => .error (.unreadable path (.syntactic fault))
  | .error (.excess which) => .error (.ofExcess which)
  | .ok v =>
    match (Document.read now v).result with
    | .error (.malformed problems) => .error (.unreadable path (.malformed problems))
    | outcome => outcome

variable {φ : Type} [FileSystem φ]

def onFiles {α : Type} (work : String → Attempt φ α) : Attempt (FileStore φ) α := fun s =>
  Attempt.focus FileStore.files (fun files store => { store with files }) (work s.path) s

def load (now : Timestamp) : Attempt (FileStore φ) Document := do
  let path := (← get).path
  let text ← Attempt.rethrow (account path "read") (onFiles FileSystem.read)
  Attempt.ofExcept (decode path now text)

def save (d : Document) : Attempt (FileStore φ) Unit := do
  let path := (← get).path
  match d.print? with
  | some text =>
    Attempt.rethrow (accountAll path "write to") (onFiles fun path => FileSystem.write path text)
  | none => throw (.unencodable path)

def holds : Attempt (FileStore φ) Bool := do
  Attempt.rethrow (accountAll (← get).path "check") (onFiles FileSystem.holds)

def delete : Attempt (FileStore φ) Unit := do
  Attempt.rethrow (account (← get).path "delete") (onFiles FileSystem.remove)

instance : Backend (FileStore φ) := ⟨load, save, holds, delete⟩

/-- A store in one line, given its files in one line. -/
def text (describe : φ → String) (s : FileStore φ) : String :=
  s!"FileBackend({describe s.files}, path={Text.quoted s.path})"

end FileStore

end Lifecycle
