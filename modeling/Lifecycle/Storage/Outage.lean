import Lifecycle.Storage.Backend
/-!
Storage whose calls fail by a schedule. A call that fails does nothing but use up its turn. -/

namespace Lifecycle

inductive Operation where
  | fetch | store | check | discard
  deriving DecidableEq, Repr

/-- For each operation whether its next calls fail, in turn; calls beyond the list succeed. -/
abbrev Outages := Keyed Operation (List Bool)

structure Unsteady (σ : Type) where
  inner : σ
  outages : Outages
  deriving Repr

namespace Unsteady

variable {σ α : Type}

/-- Whether the next call of an operation fails, and the schedule after it. -/
def turn (kind : Operation) (outages : Outages) : Bool × Outages :=
  match Keyed.find? outages kind with
  | some (fails :: rest) => (fails, Keyed.put outages kind rest)
  | _ => (false, outages)

def guarded (kind : Operation) (failure : Fault) (work : Attempt σ α) : Attempt (Unsteady σ) α :=
  fun u =>
    let (fails, outages) := turn kind u.outages
    if fails then (.error failure, { u with outages })
    else
      let (outcome, inner) := work u.inner
      (outcome, ⟨inner, outages⟩)

instance [FileSystem σ] : FileSystem (Unsteady σ) where
  read path := guarded .fetch (.system "read refused") (FileSystem.read path)
  write path text := guarded .store (.system "write refused") (FileSystem.write path text)
  holds path := guarded .check (.system "exists refused") (FileSystem.holds path)
  remove path := guarded .discard (.system "remove refused") (FileSystem.remove path)

instance [Backend σ] : Backend (Unsteady σ) where
  load now := guarded .fetch (.storage "load unavailable") (Backend.load now)
  save d := guarded .store (.storage "save unavailable") (Backend.save d)
  holds := guarded .check (.storage "exists unavailable") Backend.holds
  delete := guarded .discard (.storage "delete unavailable") Backend.delete

end Unsteady

end Lifecycle
