import Handoff.Store.Basic

/-!
# Exchanges

An exchange is a store call together with the answer to it.  What a program does to a store can be
followed by its exchanges.
-/

namespace Handoff

/-- A store call that has been answered. -/
structure Exchange where
  call : Call
  answer : Except Outage call.Answer

namespace Exchange

def kindName : Call → String
  | .get _ => "get"
  | .set .. => "set"
  | .compareAndSet .. => "cas"
  | .delete _ => "delete"

/-- One word on the answer of a store. -/
def answerWord : (call : Call) → call.Answer → String
  | .get _, value => if Option.isSome value then "hit" else "miss"
  | .compareAndSet .., swapped => if swapped then "true" else "false"
  | .set .., _ | .delete _, _ => "ok"

/-- One word on the answer to a call. -/
def word (exchange : Exchange) : String :=
  match exchange.answer with
  | .ok answer => answerWord exchange.call answer
  | .error _ => "error"

def text (exchange : Exchange) : String :=
  kindName exchange.call ++ " " ++ exchange.call.key ++ " " ++ exchange.word

end Exchange
end Handoff
