import Mathlib.Data.List.Basic

namespace oneshot

/-- The sending half of a channel for one message: its owner still holds it, has sent
the message, or has dropped it without sending. -/
inductive Sender where
  | held
  | sent
  | dropped
  deriving DecidableEq

inductive TryRecvError where
  | Empty
  | Closed
  deriving DecidableEq

/-- What the receiver finds when it looks without waiting. -/
def try_recv : Sender → Except TryRecvError Unit
  | .held => .error .Empty
  | .sent => .ok ()
  | .dropped => .error .Closed

/-- Sending the message; the half is used up by it. -/
def send : Sender → Option Sender
  | .held => some .sent
  | _ => none

def drop : Sender → Option Sender
  | .held => some .dropped
  | _ => none

end oneshot
