import Lifecycle.Fault
/-! Files under a root, by path: what any file system does, and one that only remembers. -/

namespace Lifecycle

/-- A file that is not there fails as `Fault.missingFile`; other refusals are `Fault.system`. -/
class FileSystem (φ : Type) where
  read : String → Attempt φ String
  /-- Replaces a whole file in one step. -/
  write : String → String → Attempt φ Unit
  holds : String → Attempt φ Bool
  remove : String → Attempt φ Unit

/-- Texts in memory under any path whatever. -/
structure MemoryFiles where
  files : Keyed String String
  deriving DecidableEq, Repr

namespace MemoryFiles

def read (path : String) : Attempt MemoryFiles String := do
  match Keyed.find? (← get).files path with
  | some text => return text
  | none => throw (.missingFile path)

def write (path text : String) : Attempt MemoryFiles Unit :=
  modify fun m => ⟨Keyed.put m.files path text⟩

def holds (path : String) : Attempt MemoryFiles Bool := do
  return Keyed.has (← get).files path

def remove (path : String) : Attempt MemoryFiles Unit := do
  if Keyed.has (← get).files path then modify fun m => ⟨Keyed.erase m.files path⟩
  else throw (.missingFile path)

instance : FileSystem MemoryFiles := ⟨read, write, holds, remove⟩

end MemoryFiles

end Lifecycle
