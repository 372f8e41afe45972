import AnyHttp.H2.Equiv.GetResponse
import AnyHttp.H3.Equiv.GetResponse

/-!
# `async_get_response()`

Over HTTP/2 and HTTP/3, a response arrives at a stream, or does not, while its user asks for it,
loses patience and asks again (`get_response_completes_once`).  Over HTTP/2, there is a time when a
failure must not be asked for, which is from inside `close_stream()`, while the handler of a write
runs: being told closes the stream again, and `close_stream()` goes on with an iterator that is not
valid any more (`asked_inside_fault`).
-/

namespace AnyHttp

open Lib

end AnyHttp
