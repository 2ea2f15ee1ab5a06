import Uzel.Foundation.Outcome
import Uzel.Msg

/-! # Dispatching a message to its handlers (`dispatcher.cpp`)

`dispatch` runs a task on the strand of the dispatcher.  The calls of the handlers are guarded one by
one; reading the name of the message in front of them is not.
-/

namespace Uzel

open Foundation

/-- A handler acts on the state of the application.  It may raise, and it may change the message,
whose body is parsed on demand. -/
abbrev Handler (σ : Type*) := Msg → σ → Outcome (Msg × σ)

structure MsgDispatcher (σ : Type*) where
  handlers : String → List (Handler σ)
  anyPost : List (Handler σ)

namespace MsgDispatcher

variable {σ : Type*}

def runHandlers (handlers : List (Handler σ)) : Msg × σ → Outcome (Msg × σ) :=
  .forEach (fun handler (msg, state) => (handler msg state).attempt) handlers

/-- The task of `dispatch`. -/
def dispatch (dispatcher : MsgDispatcher σ) (msg : Msg) (state : σ) : Outcome (Msg × σ) :=
  match msg.cname with
  | none => .raised (msg, state)
  | some cname =>
    let per := if msg.toMe then dispatcher.handlers cname else []
    (runHandlers per (msg, state)).andThen (runHandlers dispatcher.anyPost)

end MsgDispatcher

end Uzel
