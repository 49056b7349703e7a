/-
Hosts. The host of a special URL is a domain or an address in one of its
spellings, and is written in one way only: lower case, IPv4 in four
decimal numbers, IPv6 in brackets with the longest run of zeros left
out. The host of another URL is kept as it is.

Names with letters outside ASCII are not mapped to ASCII: a domain that holds
any is refused, and has to be given in the spelling that it would be mapped
to. Of a label in that spelling only the form is looked at
(`Punycode.isLabel`), so some are taken for letters that no domain may hold.
-/
import Depot.Url.Address
import Depot.Url.Escape
import Depot.Url.Punycode

namespace Depot.Url

/-- Why a text is no absolute URL. -/
inductive UrlFault where
  | relative
  | emptyHost
  | invalidPort
  | invalidIpv4
  | invalidIpv6
  /-- The host of a special URL is not what a domain can be. -/
  | invalidDomain
  /-- The host of another URL has a character that no host has. -/
  | invalidHost
deriving DecidableEq, Repr

/-- The reason in words. -/
def UrlFault.reason : UrlFault → String
  | relative => "relative URL without a base"
  | emptyHost => "empty host"
  | invalidPort => "invalid port number"
  | invalidIpv4 => "invalid IPv4 address"
  | invalidIpv6 => "invalid IPv6 address"
  | invalidDomain => "invalid international domain name"
  | invalidHost => "invalid domain character"

/-- Characters that no host may hold. -/
def forbiddenInHost (c : Char) : Bool :=
  ['\x00', '\t', '\n', '\r', ' ', '#', '/', ':', '<', '>', '?', '@', '[', '\\', ']', '^',
    '|'].contains c

/-- Characters that no domain may hold. Names outside ASCII are not
domains here. -/
def forbiddenInDomain (c : Char) : Bool :=
  forbiddenInHost c || inControlSet c || c = '%'

/-- An IPv6 address in brackets, of which the first is taken already. -/
def bracketed (s : List Char) : Except UrlFault String :=
  match s.getLast? with
  | some ']' =>
      match ipv6? s.dropLast with
      | some pieces => .ok (ipv6Text pieces)
      | none => .error .invalidIpv6
  | _ => .error .invalidIpv6

/-- The host of a special URL, in its one spelling. -/
def domain (s : List Char) : Except UrlFault String :=
  match s with
  | '[' :: rest => bracketed rest
  | s =>
      match Bytes.decode? (decode s) with
      | none => .error .invalidDomain
      | some name =>
          let name := name.toList.map Char.toLower
          if name.any forbiddenInDomain then .error .invalidDomain
          else if !(Text.pieces '.' name).all Punycode.isLabel then .error .invalidDomain
          else if name.isEmpty then .error .emptyHost
          else if endsInNumber name then
            match ipv4? name with
            | some address => .ok (ipv4Text address)
            | none => .error .invalidIpv4
          else .ok (String.ofList name)

/-- The host of a URL that is not special. -/
def plainHost (s : List Char) : Except UrlFault String :=
  match s with
  | '[' :: rest => bracketed rest
  | s =>
      if s.any forbiddenInHost then .error .invalidHost
      else .ok (String.ofList (encode inControlSet s))

end Depot.Url
