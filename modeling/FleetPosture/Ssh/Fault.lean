import FleetPosture.Failure
import FleetPosture.Net.Connect
import FleetPosture.Text.Quoted
import FleetPosture.Text.Utf8

/-!
What can go wrong on a connection to an SSH server.
-/

namespace FleetPosture.Ssh

inductive Fault
  | connect (cause : Net.ConnectError)
  | timedOut
  | noVersion
  | noVersionLine
  | versionText (fault : Text.Utf8Fault)
  | cutInLength
  | cutInPacket
  | packetLength (length : Nat)
  | paddingLength (length : Nat)
  | malformedKexInit
  | disconnected
  | noKeyExchange (offered : List String)
  | disconnectedInExchange
  | malformedReply
  | malformedKey
deriving DecidableEq, Repr

namespace Fault

/-- The fault of a stream that ends too early, unless it only stalled. -/
def orStalled (fault : Fault) : Net.StreamEnd → Fault
  | .closed => fault
  | .stalled => timedOut

def message : Fault → String
  | connect cause => cause.message
  | timedOut => "timed out"
  | noVersion => "connection closed before version exchange"
  | noVersionLine => "no SSH version line"
  | versionText fault => fault.message
  | cutInLength => "unexpected end of file"
  | cutInPacket => "early eof"
  | packetLength length => "bad packet length " ++ toString length
  | paddingLength length => "bad padding length " ++ toString length
  | malformedKexInit => "malformed KEXINIT"
  | disconnected => "server disconnected"
  | noKeyExchange offered => "no supported key exchange among " ++ Text.quotedList offered
  | disconnectedInExchange => "server disconnected during key exchange"
  | malformedReply => "malformed key exchange reply"
  | malformedKey => "malformed host key blob"

def toFailure (endpoint : Net.Endpoint) : Fault → Failure
  | .connect cause => (Failure.of cause.message).during ("connect to " ++ endpoint.text)
  | .timedOut => .of ("ssh key exchange with " ++ endpoint.text ++ " timed out")
  | fault => .of fault.message

end Fault
end FleetPosture.Ssh
