import StoreBinding.Duration
import StoreBinding.Text.Quoted
import StoreBinding.Value.Text

/-!
What is needed to open a connection. The literal of the parameters leaves the password
out.
-/
namespace StoreBinding

structure Params where
  host : String := "127.0.0.1"
  bucket : String := "ycsb"
  username : String := "Administrator"
  password : String := "password"
  kvTimeoutMillis : Int := 10000
  kvEndpoints : Int := 1
  enableMutationTokens : Bool := true
deriving DecidableEq, Repr

namespace Params

def kvTimeout (p : Params) : Except Duration.Overflow Duration :=
  Duration.ofMillis p.kvTimeoutMillis

def literal (p : Params) : Except Unwritable String := do
  let millis ← Value.numeral p.kvTimeoutMillis
  let endpoints ← Value.numeral p.kvEndpoints
  let tokens := if p.enableMutationTokens then "True" else "False"
  return s!"ConnectionParams(host={Text.Quoted.text p.host}, " ++
    s!"bucket={Text.Quoted.text p.bucket}, username={Text.Quoted.text p.username}, " ++
    s!"kv_timeout_millis={millis}, kv_endpoints={endpoints}, enable_mutation_tokens={tokens})"

end Params

end StoreBinding
