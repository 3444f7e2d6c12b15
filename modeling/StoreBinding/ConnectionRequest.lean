import StoreBinding.Duration.Reading
import StoreBinding.Params
import StoreBinding.Value.Text

/-!
What a caller hands over to have a connection opened: the parameters as values of any kind.
Those of a configuration are text and numbers, and for them nothing can go wrong before the
store is asked.
-/
namespace StoreBinding

structure ConnectionRequest where
  host : Value
  bucket : Value
  username : Value
  password : Value
  kvTimeoutMillis : Value
  kvEndpoints : Value
  enableMutationTokens : Value

def Params.request (p : Params) : ConnectionRequest where
  host := .text p.host
  bucket := .text p.bucket
  username := .text p.username
  password := .text p.password
  kvTimeoutMillis := .int p.kvTimeoutMillis
  kvEndpoints := .int p.kvEndpoints
  enableMutationTokens := .bool p.enableMutationTokens

namespace ConnectionRequest

/-- Host and bucket as messages show them. -/
def place (r : ConnectionRequest) : Except Unwritable (String × String) :=
  match r.host.shown with
  | .error u => .error u
  | .ok host => r.bucket.shown.map fun bucket => (host, bucket)

def kvTimeout (r : ConnectionRequest) : Except Duration.Unreadable Duration :=
  Duration.read r.kvTimeoutMillis

@[simp] theorem place_request (p : Params) : p.request.place = .ok (p.host, p.bucket) := rfl

@[simp] theorem kvTimeout_request (p : Params) :
    p.request.kvTimeout = p.kvTimeout.mapError .overflow := rfl

end ConnectionRequest

end StoreBinding
