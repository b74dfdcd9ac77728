/-
  Why a text is no absolute URL.

  Key definitions include:
    * `UrlError`
    * `UrlError.message`
-/

namespace ServiceCalls

/- Why a text is no absolute URL. -/
inductive UrlError where
| emptyHost
| invalidDomainName
| invalidPort
| invalidIpv4
| invalidIpv6
| invalidDomainCharacter
| relativeWithoutBase
deriving DecidableEq, Repr

/- The words for a fault. -/
def UrlError.message : UrlError → String
  | .emptyHost => "empty host"
  | .invalidDomainName =>
      "invalid international domain name"
  | .invalidPort => "invalid port number"
  | .invalidIpv4 => "invalid IPv4 address"
  | .invalidIpv6 => "invalid IPv6 address"
  | .invalidDomainCharacter => "invalid domain character"
  | .relativeWithoutBase => "relative URL without a base"

end ServiceCalls
