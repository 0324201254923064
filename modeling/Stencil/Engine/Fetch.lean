import Stencil.Address.AllowList
import Stencil.Config.Basic
import Stencil.Script.Machine
/-!
# Guarded fetching

What a configuration lets scripts fetch: nothing unless fetching is enabled, and then only texts of
a bounded size from the hosts that are listed.
-/
namespace Stencil
open Stencil.Script

namespace Config.Fetch

/-- An answer whose text is not too large. -/
def bounded (c : Config.Fetch) : FetchAnswer → FetchAnswer
  | .body text =>
    if c.maxResponseBytes < text.utf8ByteSize then
      .failure s!"Response too large (> {c.maxResponseBytes} bytes)"
    else .body text
  | answer => answer

/-- The way to fetch that a configuration allows, out of one that knows no bounds. -/
def guarded? (c : Config.Fetch) (fetch : String → FetchAnswer) :
    Option (String → FetchAnswer) :=
  if c.enabled then
    some fun url =>
      match AllowList.check ⟨c.allowedHosts⟩ url with
      | .ok () => c.bounded (fetch url)
      | .error refusal => .failure refusal.message
  else none

end Config.Fetch
end Stencil
