import AnyHttp.H1.Equiv.Contract
import AnyHttp.H2.Equiv.Contract
import AnyHttp.Quic.Equiv.Writer

/-!
# The writers, and their contract

"Cancelling `write_eof()` does not take the end of the body back" is not what any of the writers
promises (`end_taken_back`): over HTTP/1.1, the body ends when its last bytes have been written;
over HTTP/2, an end that nghttp2 has not been told of goes away with the stream; and over QUIC, it
is rolled back when a write that carries data is cancelled.  Up to that, all three honour the same
contract (`writers_honour`).
-/

namespace AnyHttp

/-- **All writers honour the contract**, in every run: over HTTP/1.1, over HTTP/2 with either
version of nghttp2, as a client and as a server, and over QUIC in both write modes. -/
theorem writers_honour (maxHeaderSize : Nat) :
    (∀ b m attached,
      (H1.Writer.model b).Honours ({ attached := attached, message := m } : H1.Writer)) ∧
      (∀ backend, H2.Stream.model.Honours (H2.Stream.client backend maxHeaderSize) ∧
        H2.Stream.model.Honours (H2.Stream.server backend maxHeaderSize)) ∧
      ∀ kind mode headers,
        Quic.QuicWriter.model.Honours (Quic.QuicWriter.init kind mode headers) := by
  refine ⟨?_, ?_, ?_⟩
  · intro b m attached
    exact H1.Writer.honours m attached
  · intro backend
    constructor
    · exact H2.Stream.honours ⟨backend, maxHeaderSize, .inl rfl⟩
    · exact H2.Stream.honours ⟨backend, maxHeaderSize, .inr rfl⟩
  · intro kind mode headers
    exact Quic.QuicWriter.honours kind mode headers

/-- No writer keeps to the end of a body that it has accepted: a `write_eof()` that is cancelled
over HTTP/1.1 or QUIC, and one that is still waiting when the stream of HTTP/2 goes away. -/
theorem end_taken_back :
    ¬(H1.Writer.model .plain).Promises { message := ⟨.response 200, []⟩ } ∧
      ¬H2.Stream.model.Promises (H2.Stream.server .v1 1000) ∧
      ¬Quic.QuicWriter.model.Promises (Quic.QuicWriter.init .http3 .staged true) := by
  refine ⟨?_, ?_, ?_⟩
  · exact WriterModel.not_promises _ [.write [1] true, .finish .canceled] [2] rfl (by decide) rfl
      (by decide) (by decide)
  · exact WriterModel.not_promises _ [.asyncWrite ⟨0, none⟩ [] true, .destroy] [2] rfl (by decide) rfl
      (by decide) (by decide)
  · exact WriterModel.not_promises _ [.startWrite (some ⟨0, none⟩) [1] true, .cancelWrite 1] [2] rfl
      (by decide) rfl (by decide) (by decide)

end AnyHttp
