import Uzel.Application

/-! # The application `uecho` (`app/uecho/main.cpp`)

It sends every ping back to where it came from, as a pong.
-/

namespace Uzel

open Foundation

namespace Uecho

variable (json : JsonCodec) (config : UConfig)

def pong (msg : Msg) : Msg := (Msg.forward config msg.from msg).setCname "pong"

def onPing : Handler (Application Unit) := fun msg app =>
  (app.send json (pong config msg)).map fun app => (msg, app)

/-- Nothing is connected to `s_authSuccess`. -/
def wiring : Wiring Unit where
  dispatcher := ⟨fun cname => if cname = "ping" then [onPing json config] else [], []⟩
  authSuccess := .done

def initial (now : Nat) : Application Unit := .initial now ()

def step (pid : Nat) (app : Application Unit) (e : ClientEvent) : Option (Application Unit) :=
  app.step json config (wiring json config) pid e

end Uecho

end Uzel
