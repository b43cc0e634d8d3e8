import Retag.Manifest.Content

/-! What is known of the stack of a host. How deep writing goes, is told by the outline; reading what was written goes no
    deeper; and there is room for what is small. -/

namespace Retag

open Markup

class FairHost extends Host where
  writes_of_outline {d d' : Document} {o : Outline} (h : Outline.ofDocument d = .ok o)
    (h' : Outline.ofDocument d' = .ok o) : writes d = writes d'
  reads_of_writes {d : Document} {text : List Char} (h : writes d = true) (htext : render d = .ok text) :
    reads ⟨text, .complete⟩ = true
  reads_of_length_le {s : Text.Source} (h : s.text.length ≤ 256) : reads s = true
  writes_of_size_le {d : Document} (h : d.cells.size ≤ 256) : writes d = true

namespace FairHost

/-- A host with room for everything. --/
@[reducible] def ample : FairHost where
  toHost := Host.ample
  writes_of_outline _ _ := rfl
  reads_of_writes _ _ := rfl
  reads_of_length_le _ := rfl
  writes_of_size_le _ := rfl

end FairHost

end Retag
