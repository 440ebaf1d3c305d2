import Blocklist.Text.Number
-- Addresses to listen on: a host and a port, parted by the last colon.
namespace Blocklist.Service

inductive AddressError where
  | noPort
  | badPort
  deriving DecidableEq, Repr

def AddressError.text : AddressError → String
  | .noPort => "invalid socket address"
  | .badPort => "invalid port value"

-- The host and the port of an address
def readAddress (address : String) : Except AddressError (String × Nat) :=
  let port := address.toList.reverse.takeWhile (· != ':')
  match address.toList.reverse.drop port.length with
  | [] => .error .noPort
  | _ :: host =>
    match Text.unsigned? (Text.bound16 - 1) port.reverse with
    | some n => .ok (String.ofList host.reverse, n)
    | none => .error .badPort

end Blocklist.Service
