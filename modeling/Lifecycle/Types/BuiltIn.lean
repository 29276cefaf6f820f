import Lifecycle.Registry
import Lifecycle.Types.Breakdown
import Lifecycle.Types.Design
import Lifecycle.Types.Exploration
import Lifecycle.Types.Standard
/-! The types that are always at hand. -/

namespace Lifecycle

def Registry.builtIn : Registry := [
  ("standard", Standard.blueprint),
  ("exploration", Exploration.blueprint),
  ("design", Design.blueprint),
  ("breakdown", Breakdown.blueprint)]

end Lifecycle
