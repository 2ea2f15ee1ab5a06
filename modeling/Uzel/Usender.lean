import Uzel.Application

/-! # The application `usender` (`app/usender/main.cpp`)

It sends a ping with a serial number when its client is authenticated and then every two seconds, and it
prints the serial numbers of the pongs that it gets.  `printed` is history.
-/

namespace Uzel

open Foundation

structure Usender where
  sendTimer : Timer
  addrto : Addr
  serial : Nat
  printed : List Nat

namespace Usender

/-- `send_s` -/
def sendS : Nat := seconds 2

/-- `std::isspace` -/
def isSpace (c : Char) : Bool := c == ' ' || ('\t' ≤ c && c ≤ '\r')

/-- The extraction of an `unsigned` that has to use up the text but for blanks.  A number behind a minus is
negated modulo 2^32. -/
def readUnsigned (text : List Char) : Option Nat :=
  let text := text.dropWhile isSpace
  let negative := text.head? == some '-'
  let text := if negative || text.head? == some '+' then text.tail else text
  let digits := text.takeWhile Char.isDigit
  let magnitude := digits.foldl (fun value digit => value * 10 + (digit.toNat - 48)) 0
  if digits = [] || 2 ^ 32 ≤ magnitude then none
  else if (text.dropWhile Char.isDigit).dropWhile isSpace ≠ [] then none
  else some (if negative then (2 ^ 32 - magnitude) % 2 ^ 32 else magnitude)

/-- `body.get<unsigned>("serial", 0)` -/
def serialOf (body : PTree) : Nat :=
  match body.find "serial" with
  | some child => (readUnsigned child.data.toList).getD 0
  | none => 0

def ping (config : UConfig) (addrto : Addr) (serial : Nat) : Msg :=
  .outgoing config addrto "ping" (PTree.empty.put ["serial"] (toString serial))

variable (json : JsonCodec) (config : UConfig)

/-- The timer is set before the message is sent; `m_serial` is a `size_t`. -/
def sendMsg (app : Application Usender) : Outcome (Application Usender) :=
  let sendTimer := (app.state.sendTimer.expiresAfter app.client.store.now sendS).asyncWait
  let app := { app with state := { app.state with sendTimer } }
  (app.send json (ping config app.state.addrto app.state.serial)).andThen fun app =>
    .done { app with state := { app.state with serial := (app.state.serial + 1) % 2 ^ 64 } }

def onPong : Handler (Application Usender) := fun msg app =>
  match msg.pbody json with
  | (none, msg) => .raised (msg, app)
  | (some body, msg) =>
    let printed := app.state.printed ++ [serialOf body]
    .done (msg, { app with state := { app.state with printed } })

def wiring : Wiring Usender where
  dispatcher := ⟨fun cname => if cname = "pong" then [onPong json] else [], []⟩
  authSuccess := sendMsg json config

/-- The process with the destination as it stands in the command line. -/
def initial (now : Nat) (arg : String) : Application Usender :=
  .initial now ⟨Timer.idle.expiresAfter now sendS, .ofString arg, 0, []⟩

end Usender

inductive UsenderEvent where
  | client (e : ClientEvent)
  | fire
  | onSendTimer (i : Nat)

namespace Usender

/-- The handler of the timer sends the next message, whether it is called with an error or not. -/
def step (json : JsonCodec) (config : UConfig) (pid : Nat) (app : Application Usender) :
    UsenderEvent → Option (Application Usender)
  | .client e => app.step json config (wiring json config) pid e
  | .fire =>
    (app.state.sendTimer.fire app.client.store.now).map fun sendTimer =>
      { app with state := { app.state with sendTimer } }
  | .onSendTimer i =>
    app.state.sendTimer.completions[i]?.bind fun _ =>
      let completions := app.state.sendTimer.completions.eraseIdx i
      let sendTimer := { app.state.sendTimer with completions }
      Application.returned (sendMsg json config { app with state := { app.state with sendTimer } })

end Usender

end Uzel
