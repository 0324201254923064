import Stencil.Address.Basic
/-!
# Allow lists

Which addresses scripts may fetch texts from: those of the web whose host, or a domain above it, is
listed.
-/
namespace Stencil
open Stencil.Text

/-- Why an address may not be fetched from. -/
inductive Refusal where
  | invalid (url : String) (fault : Address.Fault)
  /-- The scheme is none of the web. -/
  | scheme
  /-- The host is not listed. -/
  | host (name : String)
  deriving Repr, DecidableEq

/-- What is wrong with the address. -/
def Refusal.message : Refusal → String
  | .invalid url fault => "Invalid URL '" ++ url ++ "': " ++ fault.message
  | .scheme => "URL must start with http:// or https://"
  | .host name => "fetch to host '" ++ name ++ "' is not allowed"

/-- The hosts that may be asked, with those below them. -/
structure AllowList where
  hosts : List String
  deriving Repr, DecidableEq

namespace AllowList

/-- Whether a host is a listed one or lies below it. -/
def covers (listed host : String) : Bool :=
  host == listed || ("." ++ listed).toList.isSuffixOf host.toList

/-- Whether a host is listed, in whatever case the list is written. -/
def allows (l : AllowList) (host : String) : Bool :=
  l.hosts.any fun listed => covers (toLower listed) host

/-- Checks the text of an address. -/
def check (l : AllowList) (url : String) : Except Refusal Unit :=
  match Address.parse url with
  | .error fault => .error (.invalid url fault)
  | .ok address =>
    if address.scheme != "http" && address.scheme != "https" then .error .scheme
    else
      let host := toLower (address.host.getD "")
      if l.allows host then .ok () else .error (.host host)

end AllowList
end Stencil
