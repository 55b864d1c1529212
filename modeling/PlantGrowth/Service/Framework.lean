import PlantGrowth.Json.Encoding
import PlantGrowth.Service.Answer

/-!
# The framework around the service

The service runs in a framework that reads the bytes of bodies as JSON and writes the complaints about
them. It can give up on either: on a body that is too large or too deep for it, and on complaints that
quote what bytes cannot say. What it gives up on is not up to the service, so it is a parameter here.
-/

set_option autoImplicit false

namespace PlantGrowth.Service

/-- What a framework does for the service. -/
structure Framework where
  /-- The value of a body that has bytes. A malformed one is not JSON; any other flaw makes the framework
  give up on the body. -/
  read : List UInt8 → Except Json.Flaw Json
  /-- Writes complaints, or fails. -/
  write : List Complaint → Except Fault Unit

namespace Framework

/-- The framework that reads what is within some limits, and writes whatever has only finite numbers and
texts in it. Numbers are looked at first. -/
def standard (limits : Json.Limits) : Framework where
  read := Json.ofBytes limits
  write complaints :=
    if !complaints.all fun c => c.value.isFinite then .error .numberNotWritable
    else if !complaints.all fun c => c.value.isText then .error .textNotWritable
    else .ok ()

/-- An answer as it is sent: complaints have to be written. -/
def send (framework : Framework) : Answer → Except Fault Answer
  | .rejected complaints => do
    framework.write complaints
    return .rejected complaints
  | answer => .ok answer

/-- What comes of a request, by its verb, its address and the bytes of its body. -/
def serve (framework : Framework) (catalogue : Catalogue Float) (verb address : String)
    (bytes : List UInt8) : Except Fault Answer := do
  let answer ← answer catalogue verb address (.ofBytes framework.read bytes)
  framework.send answer

end Framework

end PlantGrowth.Service
