/-!
Why a text is not the address of anything.
-/
namespace DesignCompiler.Url

inductive Fault where
  | emptyHost
  | internationalName
  | portNumber
  | ipv4Address
  | ipv6Address
  | domainCharacter
  | relativeWithoutBase
  | relativeWithOpaqueBase
  | overflow
deriving DecidableEq, Repr

def Fault.message : Fault → String
  | emptyHost => "empty host"
  | internationalName => "invalid international domain name"
  | portNumber => "invalid port number"
  | ipv4Address => "invalid IPv4 address"
  | ipv6Address => "invalid IPv6 address"
  | domainCharacter => "invalid domain character"
  | relativeWithoutBase => "relative URL without a base"
  | relativeWithOpaqueBase => "relative URL with a cannot-be-a-base base"
  | overflow => "URLs more than 4 GB are not supported"

end DesignCompiler.Url
