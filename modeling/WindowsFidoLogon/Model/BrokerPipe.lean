import WindowsFidoLogon.Model.BrokerService

/-!
# The pipe

What `Run` puts around `ProcessRequest`.
-/

namespace WindowsFidoLogon
namespace BrokerService

open Text

/-- What `Run` writes in place of a response that does not fit. -/
def oversizedResponse : Bytes :=
  text "\x7b\"ok\":false,\"error\":\"Broker response is too large\"\x7d"

/-- The response as `Run` writes it. -/
def pipeResponse (response : Bytes) : Bytes :=
  if response.length > kMaxBrokerMessageBytes then oversizedResponse else response

end BrokerService
end WindowsFidoLogon
