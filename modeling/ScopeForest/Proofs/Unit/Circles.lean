import ScopeForest.Proofs.Types.Forms
import ScopeForest.Proofs.Types.Refusals
import ScopeForest.Proofs.Unit.Rendering

namespace ScopeForest

open Outcome

namespace Slots

variable {s : Slots} {store : Store} {circle : List TypeId}

end Slots

namespace Sample

end Sample

open Sample

end ScopeForest
