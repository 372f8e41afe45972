import AnyHttp.AltSvc
import Mathlib.Algebra.Order.Ring.Int

/-!
# The HTTP/3 alternative

What the server says about it (`server_impl.cpp`), in the field value that it adds to its responses
over TCP, and what the client remembers of it (`client_impl.cpp`).

Durations and the time of the steady clock are 64-bit integers, seconds of the one and nanoseconds
of the other.  A signed integer that overflows has no value.
-/

namespace AnyHttp

/-- `std::format("{}")` of a number that isn't negative. -/
def decimal (n : Nat) : List UInt8 := text (toString n)

/-- `AltSvc::find()`. -/
def AltSvc.findService (altSvc : AltSvc) (protocol : List UInt8) : Option AltService :=
  altSvc.services.find? (·.protocol == protocol)

/-- `alt_svc_` of the server, with the port that it listens on; nothing is advertised if it is
empty. -/
def Server.altSvc (port : UInt16) (maxAge : Int64) : List UInt8 :=
  if 0 < maxAge then
    text "h3=\":" ++ decimal port.toNat ++ text "\"; ma=" ++ decimal maxAge.toInt.toNat
  else []

namespace Client

/-- `AlternativeService`, an endpoint and when it expires, by the steady clock. -/
structure AlternativeService where
  host : List UInt8
  port : List UInt8
  expires : Int64
deriving DecidableEq, Repr

/-- The result of a signed operation. -/
def checked (n : Int) : Option Int64 :=
  if -2 ^ 63 ≤ n ∧ n < 2 ^ 63 then some (Int64.ofInt n) else none

/-- `std::chrono::steady_clock::now() + max_age`: seconds are made nanoseconds first. -/
def expiry (now maxAge : Int64) : Option Int64 := do
  let nanoseconds ← checked (maxAge.toInt * 1000000000)
  checked (now.toInt + nanoseconds.toInt)

/-- `on_alt_svc()`: the alternative that is known afterwards. -/
def onAltSvc (followAltSvc : Bool) (known : Option AlternativeService) (fieldValue : List UInt8)
    (now : Int64) : Option (Option AlternativeService) :=
  if followAltSvc = false then some known
  else
    let altSvc := AltSvc.parseAltSvc fieldValue
    let service := altSvc.findService (text "h3")
    if altSvc.clear ∨ service.any (·.maxAge == 0) then some none
    else
      match service with
      | none => some known
      | some service => do
        let expires ← expiry now service.maxAge
        return some ⟨service.host, service.port, expires⟩

/-- `alt_svc()`: what is known, unless it has expired. -/
def altSvc (known : Option AlternativeService) (now : Int64) : Option AlternativeService :=
  match known with
  | some alternative => if alternative.expires ≤ now then none else some alternative
  | none => none

end Client

end AnyHttp
