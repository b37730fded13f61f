import RemoteModel.Proofs.Calls.Single
import RemoteModel.Proofs.Connector.Credential

/-!
Errors of calls that are none of the library's own. They come from what is done with a call before it is
sent: its payload cannot be written, one of its headers is no text, or no request can be made of it.
-/

namespace RemoteModel

open Host

/-- Errors that do not stand below the base class of the library. -/
def Failure.Foreign (f : Failure) : Prop := f.isA (.own .base) = false

namespace Connector

end Connector

namespace Executor

theorem call_decrypt [HostEncoder] (e : Executor) (c : Call) (h : Host) :
    (e.call c h).2.1.decrypt = e.decrypt := by
  unfold call
  split <;> rfl

/-- The ways of a call to end in a foreign error: its payload cannot be written, one of its headers is no
text, or no request can be made of it. -/
inductive Strays [HostEncoder] (e : Executor) (c : Call) (h : Host) : Failure → Prop
  | unwritable {payload : Text} {f : Failure} : methodOf c.method = .ok "POST" →
      c.payload = some payload → Text.encode payload = .error f → Strays e c h f
  | header {body : Option Bytes} : checkOf c = .ok body →
      e.connector.headers c.action .ok c.parameters = .error .wrongType → Strays e c h .wrongType
  | unready {f : Failure} : e.FailsUnready c h f → f.Foreign → Strays e c h f

end Executor

end RemoteModel
