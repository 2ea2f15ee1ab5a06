import Uzel.Foundation.Simulation
import Uzel.ServerRules

/-! # A server on its sockets

For a server that runs, the unit of input is not the message but the block that `async_read_some` has
read, and the read handler goes through all of its messages before anything else happens.  The steps
here are the completions with the read handler as a whole; they refine the steps of the server, which
take the messages of a block one by one.
-/

namespace Uzel

open Foundation

/-- The completions of a server: a block of input of a session, or one of the others. -/
inductive SocketEvent where
  | input (sid : SessionId) (block : List Char)
  | other (e : ServerEvent)

namespace Server

variable (json : JsonCodec) (config : UConfig) (pid : Nat)

def socketStep (server : Server) : SocketEvent → Option Server
  | .input sid block => server.read json config sid block
  -- parts of the read handler
  | .other (.received _ _ _) | .other (.readAgain _ _) => none
  | .other e => server.step json config pid e

variable {json config pid}

theorem socketStep_other {e : ServerEvent} {s t : Server}
    (next : s.socketStep json config pid (.other e) = some t) : s.step json config pid e = some t := by
  cases e with
  | received sid header body => cases next
  | readAgain sid processor => cases next
  | _ => exact next

/-- Every step on the sockets is a run of the server. -/
theorem socket_simulates (lawful : json.Lawful) :
    Simulates (socketStep json config pid) (Server.step json config pid) Eq := by
  rintro s t _ e rfl next
  cases e with
  | input sid block =>
    obtain ⟨events, run⟩ := @read_exec json config lawful pid sid block s t next
    exact ⟨events, t, run.executed, rfl⟩
  | other e => exact ⟨[e], t, exec_singleton.trans (socketStep_other next), rfl⟩

/-- What each step of a server keeps is kept on the sockets. -/
theorem socketStep_keeps (lawful : json.Lawful) {P : Server → Prop} {s t : Server} {e : SocketEvent}
    (kept : ∀ {s t e}, P s → Server.step json config pid s e = some t → P t) (initial : P s)
    (next : s.socketStep json config pid e = some t) : P t := by
  obtain ⟨events, _, executed, rfl⟩ := socket_simulates lawful rfl next
  exact (always_of_invariant kept initial events).last executed

/-- A property of the server that the messages of a block keep holds when the read handler is done with
them; then it reads on or gives up. -/
theorem read_keeps {P : Server → Prop} {s t : Server} {sid : SessionId} {block : List Char} (initial : P s)
    (each : ∀ frame ∈ (framesOf json block (s.store.session sid).processor).1, ∀ s, P s →
      (dispatchMsg json config sid frame.1 frame.2 s).All P)
    (returned : s.read json config sid block = some t) : ∃ u, P u ∧ (t = u.readFailed sid ∨
      ∃ header, (framesOf json block (s.store.session sid).processor).2 = some header ∧
        t = u.readAgain sid ⟨⟨(splitLines (s.store.session sid).processor.acculine.cmd block).2, []⟩, header⟩) := by
  simp only [read] at returned
  split at returned
  next =>
    rw [processNewInput_eq_deliver] at returned
    rw [framesOf] at each ⊢
    generalize scan json.readJson (s.store.session sid).processor.header
      (splitLines (s.store.session sid).processor.acculine.cmd block).1 = scanned at each returned ⊢
    generalize (splitLines (s.store.session sid).processor.acculine.cmd block).2 = cmd at returned ⊢
    rcases deliver_keeps initial each with
      ⟨u, holds, ends⟩ | ⟨u, holds, stops⟩ | ⟨u, raised⟩ | hangs
    · rw [ends] at returned
      cases waiting : scanned.2 with
      | none =>
        rw [waiting] at returned
        cases returned
        exact ⟨u, holds, .inl rfl⟩
      | some header =>
        rw [waiting] at returned
        cases returned
        exact ⟨u, holds, .inr ⟨header, rfl, rfl⟩⟩
    · rw [stops] at returned
      cases returned
      exact ⟨u, holds, .inl rfl⟩
    · rw [raised] at returned
      cases returned
    · rw [hangs] at returned
      cases returned
  next => cases returned

end Server

end Uzel
