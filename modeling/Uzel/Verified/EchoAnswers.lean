import Uzel.Uecho
import Uzel.Verified.ApplicationRuns

/-! # The answers of `uecho`

A message that reaches the dispatcher has come on an authenticated session, and that is the one that
`send` finds.  So in every run the application has sent one pong for each ping that it has heard, in
their order; only a ping that cannot be encoded again has no answer.  What becomes of the pongs is said
in the terms of `ClientCustody`.
-/

namespace Uzel.Verified.EchoAnswers

open Foundation SingleConnection ClientCustody ApplicationRuns

/-- The pong for a message, if it is a ping for this application and the JSON writer accepts the pong. -/
def answer (json : JsonCodec) (config : UConfig) (msg : Msg) : Option Msg :=
  if msg.cname = some "ping" ∧ msg.toMe = true ∧ ((Uecho.pong config msg).charvec json).isSome = true then
    some (Uecho.pong config msg)
  else none

structure Answers (json : JsonCodec) (config : UConfig) (pid : Nat) (app : Application Unit) : Prop where
  sound : app.undefinedBehaviour = false
  answered : app.given.map Prod.snd = app.heard.filterMap (answer json config)
  custody : ∃ accepted, ExactlyOnce ⟨app.client, accepted⟩ ∧ Entries json config pid accepted app.given

/-- The part of it that is about the application. -/
def Echoes (json : JsonCodec) (config : UConfig) (app : Application Unit) : Prop :=
  app.undefinedBehaviour = false ∧ app.given.map Prod.snd = app.heard.filterMap (answer json config)

section Echoing

variable {json : JsonCodec} {config : UConfig} {pid : Nat} {app after : Application Unit}

/-- On a client that knows its peer, the handler sends the pong if it can be encoded. -/
theorem onPing_cases {sid : SessionId} (registered : app.client.locals.lookup "userver" = some sid)
    {msg msg' : Msg} (called : (Uecho.onPing json config msg app).final = some (msg', after)) :
    after.undefinedBehaviour = app.undefinedBehaviour ∧ after.heard = app.heard ∧
      after.given.map Prod.snd = app.given.map Prod.snd ++
        if ((Uecho.pong config msg).charvec json).isSome = true then [Uecho.pong config msg] else [] := by
  have sent : app.client.send json (Uecho.pong config msg) =
      some ((app.client.store.putOutQueue json sid (Uecho.pong config msg)).map app.client.withStore) := by
    simp only [NetClient.send, registered, Option.map_some]
  unfold Uecho.onPing Application.send at called
  rw [sent] at called
  rcases @putOutQueue_cases json sid (Uecho.pong config msg) app.client.store with
    ⟨queued, store, built, done⟩ | ⟨unencodable, store, raised⟩
  · rw [done] at called
    cases called
    simp [(QueuedMsg.ofMsg_eq built).1]
  · have none_ : (Uecho.pong config msg).charvec json = none := Option.map_eq_none_iff.mp unencodable
    rw [raised] at called
    cases called
    simp [none_, Application.withClient]

theorem echoes_received (lawful : json.Lawful) (ordinary : config.appName ≠ "userver")
    (single : Single app.client) (echoes : Echoes json config app) {sid : SessionId} {header : PTree}
    {body : Body} (created : sid < app.client.nextSession)
    (next : app.received json config (Uecho.wiring json config) sid header body = some after) :
    Echoes json config after := by
  cases received_cases lawful ordinary single next with
  | handled known dispatched =>
    have registered : (hears config sid header body app).client.locals.lookup "userver" = some sid :=
      (single.locals _ _).mpr ⟨rfl, created, known⟩
    generalize isMsg : Msg.incoming config header body (some sid) = msg at dispatched
    have heard : (hears config sid header body app).heard = app.heard ++ [msg] := by rw [hears, isMsg]
    rcases dispatch_single dispatched with ⟨named, toMe, called⟩ | ⟨other, rfl⟩
    · obtain ⟨flag, heard', given⟩ := onPing_cases registered called
      refine ⟨flag.trans echoes.1, ?_⟩
      rw [given, heard', heard, List.filterMap_append, ← echoes.2]
      congr 1
      by_cases encoded : ((Uecho.pong config msg).charvec json).isSome = true <;>
        simp [answer, named, toMe, encoded]
    · refine ⟨echoes.1, ?_⟩
      have silent : answer json config msg = none := if_neg fun ping => other ⟨ping.1, ping.2.1⟩
      rw [heard, List.filterMap_append, ← echoes.2]
      simp [silent, hears]
  | unnamed known nameless pending same =>
    refine same ▸ ⟨echoes.1, ?_⟩
    have silent : answer json config (.incoming config header body (some sid)) = none := by
      apply if_neg
      rintro ⟨named, -⟩
      rw [nameless] at named
      cases named
    show app.given.map Prod.snd = (app.heard ++ [_]).filterMap _
    rw [List.filterMap_append, ← echoes.2]
    simp [silent]
  | @welcomed client left unknown pending received unregistered registered called same =>
    cases called
    rcases same with rfl | ⟨raised, -⟩
    · exact echoes
    · cases raised
  | refused unknown received locals same =>
    rw [same]
    exact echoes

end Echoing

/-! ## Runs -/

section Runs

variable {json : JsonCodec} {config : UConfig}

theorem polite_wiring : Polite json (Uecho.wiring json config) where
  authSuccess _ := .quiet rfl rfl
  handlers cname handler member msg app := by
    simp only [Uecho.wiring] at member
    split at member
    · obtain rfl := List.mem_singleton.mp member
      exact Outcome.all_map.mpr (sends_send (Uecho.pong config msg) app)
    · cases member
  anyPost handler member := by cases member

/-- In every run of `uecho` there is one pong for each ping that it has heard and that can be encoded. -/
theorem pings_answered (lawful : json.Lawful) (ordinary : config.appName ≠ "userver") (pid now : Nat)
    (events : List ClientEvent) :
    Always (Uecho.step json config pid) (Answers json config pid) (Uecho.initial now) events := by
  have invariant : Always (Uecho.step json config pid)
      (fun app => Echoes json config app ∧ ∃ account, Books json config pid app account)
      (Uecho.initial now) events := by
    apply always_of_invariant
    · rintro app after e ⟨echoes, account, books⟩ next
      have single : Single app.client := books.client ▸ books.custody.single
      obtain ⟨es, account', -, books'⟩ := application_simulates lawful ordinary polite_wiring books next
      refine ⟨?_, account', books'⟩
      rcases step_cases next with ⟨sid, header, body, rfl, created, received⟩ | ⟨-, -, client, -, rfl⟩
      · exact echoes_received lawful ordinary single echoes created received
      · exact echoes
    · exact ⟨⟨rfl, rfl⟩, _, books_initial now _⟩
  apply invariant.mono
  rintro app ⟨echoes, ⟨client, accepted⟩, books⟩
  obtain rfl : client = app.client := books.client
  exact ⟨echoes.1, echoes.2, accepted, books.custody.exactlyOnce, books.entries⟩

/-- A ping comes in behind the authentication. -/
theorem pings_answered_once :
    Always (Uecho.step Json.compactJson ⟨"beta", "uecho"⟩ 7) (Answers Json.compactJson ⟨"beta", "uecho"⟩ 7)
      (Uecho.initial 0)
      [.resolved (some "127.0.0.1"), .connectHandler 0 true,
        .received 0 (serviceHeader ⟨"beta", "userver"⟩ "auth") (.tree .empty),
        .received 0 (Msg.outgoing ⟨"alpha", "usender"⟩ ⟨"uecho", "beta"⟩ "ping" .empty).header (.raw ['1'])] :=
  pings_answered Json.compactJson_lawful (by decide) 7 0 _

end Runs

end Uzel.Verified.EchoAnswers
