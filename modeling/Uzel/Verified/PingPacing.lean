import Uzel.Usender
import Uzel.Verified.ApplicationRuns

/-! # The pings of `usender`

Each call of `sendMsg` sets the timer for the next one.  The signal of the authentication starts this
chain of calls, and a second signal would start a second chain; the client authenticates once, so there
is one chain.  `paced_pings` says that the application sends the pings 0, 1, 2 and so on, at least two
seconds apart, that it goes on doing so once it has begun, and that it never follows the null pointer that
`send` finds before the client is authenticated.  What becomes of the pings in the client is said in the
terms of `ClientCustody`.
-/

namespace Uzel.Verified.PingPacing

open Foundation SingleConnection ClientCustody ApplicationRuns

/-- What holds of the pings that have been sent, with the times. -/
structure Paced (json : JsonCodec) (config : UConfig) (pid : Nat) (addrto : Addr)
    (app : Application Usender) : Prop where
  sound : app.undefinedBehaviour = false
  numbered : app.given.map Prod.snd =
    (List.range app.given.length).map fun i => Usender.ping config addrto (i % 2 ^ 64)
  spaced : app.given.Pairwise fun first second => first.1 + Usender.sendS ≤ second.1
  oneChain : app.state.sendTimer.outstanding = if app.given = [] then 0 else 1
  custody : ∃ accepted, ExactlyOnce ⟨app.client, accepted⟩ ∧ Entries json config pid accepted app.given

/-! ## The messages -/

/-- The header of a message of this application to another one. -/
theorem header_outgoing (config : UConfig) (dest : Addr) (cname : String) (body : PTree) :
    (Msg.outgoing config dest cname body).header =
      .node "" (("from", .node "" [("n", .leaf config.nodeName), ("a", .leaf config.appName)]) ::
        (if dest.app ≠ "" ∧ dest.node ≠ "" then
          [("to", .node "" [("n", .leaf (if dest.node = "localhost" then config.nodeName else dest.node)),
            ("a", .leaf dest.app)])]
        else []) ++ [("cname", .leaf cname)]) := by
  by_cases complete : dest.app ≠ "" ∧ dest.node ≠ ""
  · simp only [Msg.outgoing, Msg.setDest, if_pos complete, Msg.setCname, Msg.updateDest_header]
    rfl
  · simp only [Msg.outgoing, Msg.setDest, if_neg complete, Msg.setCname, Msg.updateDest_header]
    rfl

theorem writable_outgoing (config : UConfig) (dest : Addr) (cname : String) (body : PTree) :
    (Msg.outgoing config dest cname body).header.Writable := by
  rw [header_outgoing]
  split <;> simp [PTree.Writable, PTree.exclusive, PTree.exclusiveChildren, PTree.exclusiveChild, PTree.leaf]

theorem body_outgoing (config : UConfig) (dest : Addr) (cname : String) (body : PTree) :
    (Msg.outgoing config dest cname body).body = .tree body := by
  simp only [Msg.outgoing, Msg.setDest, Msg.setCname, Msg.updateDest_body]
  split <;> rfl

theorem body_ping (serial : Nat) :
    PTree.empty.put ["serial"] (toString serial) = .node "" [("serial", .leaf (toString serial))] := rfl

theorem ofMsg_ping {json : JsonCodec} (lawful : json.Lawful) (config : UConfig) (addrto : Addr)
    (serial now id : Nat) :
    ∃ queued, QueuedMsg.ofMsg json now id (Usender.ping config addrto serial) = some queued := by
  have body : (PTree.empty.put ["serial"] (toString serial)).Writable := by
    rw [body_ping]
    simp [PTree.Writable, PTree.exclusive, PTree.exclusiveChildren, PTree.exclusiveChild, PTree.leaf]
  obtain ⟨line, headerWritten, -⟩ := lawful.inverts _ (writable_outgoing config addrto "ping"
    (PTree.empty.put ["serial"] (toString serial)))
  obtain ⟨text, bodyWritten, -⟩ := lawful.inverts _ body
  have encoded : (Usender.ping config addrto serial).charvec json =
      some (line ++ ['\n'] ++ (text ++ ['\n'])) := by
    simp only [Msg.charvec, Msg.str, Usender.ping, body_outgoing, headerWritten, bodyWritten,
      Option.bind_some, Option.map_some]
  exact ⟨_, congrArg (Option.map _) encoded⟩

/-! ## One step -/

/-- What has been sent, and what is sent next. -/
structure Pings (config : UConfig) (addrto : Addr) (app : Application Usender) : Prop where
  sound : app.undefinedBehaviour = false
  destination : app.state.addrto = addrto
  serial : app.state.serial = app.given.length % 2 ^ 64
  numbered : app.given.map Prod.snd =
    (List.range app.given.length).map fun i => Usender.ping config addrto (i % 2 ^ 64)
  spaced : app.given.Pairwise fun first second => first.1 + Usender.sendS ≤ second.1

/-- The timer runs from the last ping on. -/
structure Sender (config : UConfig) (addrto : Addr) (app : Application Usender) : Prop
    extends Pings config addrto app where
  recent : ∀ entry ∈ app.given, entry.1 + Usender.sendS ≤ app.state.sendTimer.expiry
  due : app.state.sendTimer.completions ≠ [] → app.state.sendTimer.expiry ≤ app.client.store.now
  oneChain : app.state.sendTimer.outstanding = if app.given = [] then 0 else 1
  begun : app.given = [] ↔ app.client.locals.lookup "userver" = none

section Sending

variable {json : JsonCodec} {config : UConfig} {pid : Nat} {addrto : Addr} {app after : Application Usender}

/-- A step of the client alone. -/
theorem Sender.client (sender : Sender config addrto app) {client : NetClient}
    (locals : client.locals = app.client.locals) (later : app.client.store.now ≤ client.store.now) :
    Sender config addrto (app.withClient client) where
  toPings := ⟨sender.sound, sender.destination, sender.serial, sender.numbered, sender.spaced⟩
  recent := sender.recent
  due some_ := (sender.due some_).trans later
  oneChain := sender.oneChain
  begun := by
    show app.given = [] ↔ client.locals.lookup "userver" = none
    rw [locals]
    exact sender.begun

theorem send_ping (lawful : json.Lawful) (config : UConfig) (app : Application Usender) {sid : SessionId}
    (registered : app.client.locals.lookup "userver" = some sid) (dest : Addr) (serial : Nat) :
    ∃ client, app.send json (Usender.ping config dest serial) = .done { app with
        client, given := app.given ++ [(app.client.store.now, Usender.ping config dest serial)] } ∧
      client.locals = app.client.locals ∧ client.store.now = app.client.store.now := by
  obtain ⟨queued, built⟩ := ofMsg_ping lawful config dest serial app.client.store.now
    app.client.store.nextMsg
  rcases @putOutQueue_cases json sid (Usender.ping config dest serial) app.client.store with
    ⟨_, store, -, done⟩ | ⟨unencodable, -⟩
  · have grown := Sessions.grows_putOutQueue json sid (Usender.ping config dest serial) app.client.store
    rw [done] at grown
    refine ⟨app.client.withStore store, ?_, rfl, grown.now⟩
    have sent : app.client.send json (Usender.ping config dest serial) =
        some (.done (app.client.withStore store)) := by
      simp only [NetClient.send, registered, Option.map_some, done, Outcome.map_done]
    simp only [Application.send, sent]
  · rw [unencodable] at built
    cases built

theorem map_ping_succ {given : List (Nat × Msg)} (now : Nat)
    (numbered : given.map Prod.snd =
      (List.range given.length).map fun i => Usender.ping config addrto (i % 2 ^ 64)) :
    (given ++ [(now, Usender.ping config addrto (given.length % 2 ^ 64))]).map Prod.snd =
      (List.range (given.length + 1)).map fun i => Usender.ping config addrto (i % 2 ^ 64) := by
  rw [List.map_append, numbered, List.range_succ, List.map_append]
  rfl

/-- The handler `sendMsg` runs while no wait of the timer is outstanding and the last ping is old. -/
theorem sender_sendMsg (lawful : json.Lawful) {sid : SessionId}
    (registered : app.client.locals.lookup "userver" = some sid) (pings : Pings config addrto app)
    (recent : ∀ entry ∈ app.given, entry.1 + Usender.sendS ≤ app.client.store.now)
    (ended : app.state.sendTimer.outstanding = 0) :
    ∃ after, Usender.sendMsg json config app = .done after ∧ Sender config addrto after := by
  generalize isTimer : (app.state.sendTimer.expiresAfter app.client.store.now Usender.sendS).asyncWait = timer
  have expiry : timer.expiry = app.client.store.now + Usender.sendS := by
    rw [← isTimer]
    rfl
  have outstanding : timer.outstanding = 1 := by
    rw [← isTimer, Timer.outstanding_asyncWait, Timer.outstanding_expiresAfter, ended]
  have none_ : timer.completions = [] := by
    have both : app.state.sendTimer.waiting + app.state.sendTimer.completions.length = 0 := ended
    have waiting : app.state.sendTimer.waiting = 0 := by omega
    have completions : app.state.sendTimer.completions = [] := List.length_eq_zero_iff.mp (by omega)
    rw [← isTimer]
    simp [Timer.asyncWait, Timer.expiresAfter, waiting, completions]
  obtain ⟨client, sent, locals, now⟩ := send_ping lawful config
    { app with state := { app.state with sendTimer := timer } } registered app.state.addrto app.state.serial
  refine ⟨⟨client, ⟨timer, app.state.addrto, (app.state.serial + 1) % 2 ^ 64, app.state.printed⟩, app.heard,
    app.given ++ [(app.client.store.now, Usender.ping config app.state.addrto app.state.serial)],
    app.undefinedBehaviour⟩, ?_, ?_⟩
  · simp only [Usender.sendMsg, isTimer, sent, Outcome.andThen_done]
  · rw [pings.destination, pings.serial]
    refine ⟨⟨pings.sound, rfl, ?_, ?_, ?_⟩, ?_, ?_, ?_, ?_⟩
    · simp
    · rw [List.length_append]
      exact map_ping_succ _ pings.numbered
    · rw [List.pairwise_append]
      refine ⟨pings.spaced, List.pairwise_singleton _ _, fun entry member next isNext => ?_⟩
      obtain rfl := List.mem_singleton.mp isNext
      exact recent entry member
    · intro entry member
      rw [expiry]
      rcases List.mem_append.mp member with earlier | last
      · exact (recent entry earlier).trans (Nat.le_add_right _ _)
      · obtain rfl := List.mem_singleton.mp last
        exact Nat.le_refl _
    · exact fun some_ => absurd none_ some_
    · rw [outstanding, if_neg (List.append_ne_nil_of_right_ne_nil _ (List.cons_ne_nil _ _))]
    · show _ ↔ client.locals.lookup "userver" = none
      rw [locals]
      simp [registered]

/-- A step that changes neither the client nor the timer, and sends nothing. -/
theorem Sender.quiet (sender : Sender config addrto app) (client : after.client = app.client)
    (sendTimer : after.state.sendTimer = app.state.sendTimer) (dest : after.state.addrto = app.state.addrto)
    (serial : after.state.serial = app.state.serial) (given : after.given = app.given)
    (flag : after.undefinedBehaviour = app.undefinedBehaviour) : Sender config addrto after where
  sound := flag.trans sender.sound
  destination := dest.trans sender.destination
  serial := by rw [serial, given, sender.serial]
  numbered := by rw [given, sender.numbered]
  spaced := given ▸ sender.spaced
  recent := by rw [given, sendTimer]; exact sender.recent
  due := by rw [client, sendTimer]; exact sender.due
  oneChain := by rw [given, sendTimer, sender.oneChain]
  begun := by rw [given, client]; exact sender.begun

theorem sender_onPong (sender : Sender config addrto app) {msg msg' : Msg}
    (called : (Usender.onPong json msg app).final = some (msg', after)) : Sender config addrto after := by
  unfold Usender.onPong at called
  split at called
  · cases called
    exact sender
  · cases called
    exact sender.quiet rfl rfl rfl rfl rfl rfl

theorem sender_received (lawful : json.Lawful) (ordinary : config.appName ≠ "userver")
    (single : Single app.client) (sender : Sender config addrto app) {sid : SessionId} {header : PTree}
    {body : Body} (created : sid < app.client.nextSession)
    (next : app.received json config (Usender.wiring json config) sid header body = some after) :
    Sender config addrto after := by
  have heard : Sender config addrto (hears config sid header body app) :=
    sender.quiet rfl rfl rfl rfl rfl rfl
  have later : ∀ {client}, app.client.received json config sid header body = some client →
      app.client.store.now ≤ client.store.now := by
    intro client received
    have stepped : app.client.step json config 0 (.received sid header body) = some client := by
      simp only [NetClient.step, created, if_true, received]
    exact (does_step lawful ordinary single stepped).later
  cases received_cases lawful ordinary single next with
  | handled known dispatched =>
    rcases dispatch_single dispatched with ⟨-, -, called⟩ | ⟨-, same⟩
    · exact sender_onPong heard called
    · exact same ▸ heard
  | unnamed known nameless pending same =>
    rw [same]
    obtain ⟨locals, now⟩ := readFailed_keeps sid app.client
    exact heard.client locals now.ge
  | @welcomed client left unknown pending received unregistered registered called same =>
    have nothing : app.given = [] := sender.begun.mpr unregistered
    have pings : Pings config addrto (app.withClient client) :=
      ⟨sender.sound, sender.destination, sender.serial, sender.numbered, sender.spaced⟩
    have ended : app.state.sendTimer.outstanding = 0 := by rw [sender.oneChain, if_pos nothing]
    have recent : ∀ entry ∈ app.given, entry.1 + Usender.sendS ≤ client.store.now := by simp [nothing]
    obtain ⟨sent, done, sender'⟩ := sender_sendMsg lawful registered pings recent ended
    have isSent : (Usender.wiring json config).authSuccess (app.withClient client) = .done sent := done
    rw [isSent] at called same
    cases called
    rcases same with rfl | ⟨raised, -⟩
    · exact sender'
    · cases raised
  | @refused client unknown received locals same =>
    rw [same]
    exact sender.client locals (later received)

theorem sender_step (lawful : json.Lawful) (ordinary : config.appName ≠ "userver")
    (single : Single app.client) (sender : Sender config addrto app) {e : UsenderEvent}
    (next : Usender.step json config pid app e = some after) : Sender config addrto after := by
  cases e with
  | client e =>
    rcases step_cases next with ⟨sid, header, body, rfl, created, received⟩ | ⟨unread, -, client, stepped, rfl⟩
    · exact sender_received lawful ordinary single sender created received
    · exact sender.client (step_locals stepped unread) (does_step lawful ordinary single stepped).later
  | fire =>
    obtain ⟨timer, fires, rfl⟩ := Option.map_eq_some_iff.mp next
    have outstanding := Timer.outstanding_fire fires
    obtain ⟨expiry, expired⟩ := Timer.expiry_fire fires
    refine ⟨⟨sender.sound, sender.destination, sender.serial, sender.numbered, sender.spaced⟩, ?_, ?_, ?_,
      sender.begun⟩
    · show ∀ entry ∈ app.given, entry.1 + Usender.sendS ≤ timer.expiry
      rw [expiry]
      exact sender.recent
    · show timer.completions ≠ [] → timer.expiry ≤ app.client.store.now
      rw [expiry]
      exact fun _ => expired
    · exact outstanding.trans sender.oneChain
  | onSendTimer i =>
    obtain ⟨ok, queued, returned⟩ := Option.bind_eq_some_iff.mp next
    have bound := (List.getElem?_eq_some_iff.mp queued).1
    have some_ : app.state.sendTimer.completions ≠ [] := List.ne_nil_of_length_pos (Nat.zero_lt_of_lt bound)
    have outstanding := sender.oneChain
    have begun : app.given ≠ [] := by
      intro nothing
      rw [if_pos nothing, Timer.outstanding] at outstanding
      omega
    rw [if_neg begun] at outstanding
    obtain ⟨sid, registered⟩ := Option.ne_none_iff_exists'.mp fun none_ => begun (sender.begun.mpr none_)
    obtain ⟨sent, done, sender'⟩ := @sender_sendMsg json config addrto
      { app with state := { app.state with
        sendTimer := { app.state.sendTimer with
          completions := app.state.sendTimer.completions.eraseIdx i } } } lawful sid registered
      ⟨sender.sound, sender.destination, sender.serial, sender.numbered, sender.spaced⟩
      (fun entry member => (sender.recent entry member).trans (sender.due some_)) (by
        show app.state.sendTimer.waiting + (app.state.sendTimer.completions.eraseIdx i).length = 0
        rw [List.length_eraseIdx_of_lt bound]
        rw [Timer.outstanding] at outstanding
        omega)
    dsimp only at returned
    rw [done] at returned
    cases returned
    exact sender'

end Sending

/-! ## Runs -/

section Runs

variable {json : JsonCodec} {config : UConfig}

theorem sends_sendMsg (app : Application Usender) :
    (Usender.sendMsg json config app).All (Sends json app) := by
  unfold Usender.sendMsg
  dsimp only
  generalize isReady : ({ app with state := { app.state with
    sendTimer := (app.state.sendTimer.expiresAfter app.client.store.now Usender.sendS).asyncWait } } :
      Application Usender) = ready
  have set : Sends json app ready := by
    rw [← isReady]
    exact .quiet rfl rfl
  apply Outcome.All.andThen ((sends_send _ ready).mono fun _ sent => set.trans sent)
  exact fun left sent => sent.trans (.quiet rfl rfl)

theorem polite_wiring : Polite json (Usender.wiring json config) where
  authSuccess := sends_sendMsg
  handlers cname handler member msg app := by
    simp only [Usender.wiring] at member
    split at member
    · obtain rfl := List.mem_singleton.mp member
      unfold Usender.onPong
      split
      · exact .quiet rfl rfl
      · exact .quiet rfl rfl
    · cases member
  anyPost handler member := by cases member

theorem usender_simulates (lawful : json.Lawful) (ordinary : config.appName ≠ "userver") (pid : Nat) :
    Simulates (Usender.step json config pid) (Account.step json config pid) (Books json config pid) := by
  intro app after account e books next
  cases e with
  | client e => exact application_simulates lawful ordinary polite_wiring books next
  | fire =>
    obtain ⟨timer, -, rfl⟩ := Option.map_eq_some_iff.mp next
    exact books.sends lawful ordinary (.quiet rfl rfl)
  | onSendTimer i =>
    obtain ⟨ok, queued, returned⟩ := Option.bind_eq_some_iff.mp next
    dsimp only at returned
    generalize isReady : ({ app with state := { app.state with
      sendTimer := { app.state.sendTimer with
        completions := app.state.sendTimer.completions.eraseIdx i } } } : Application Usender) = ready at returned
    have set : Sends json app ready := by
      rw [← isReady]
      exact .quiet rfl rfl
    have sends := @sends_sendMsg json config ready
    cases called : Usender.sendMsg json config ready with
    | done left =>
      rw [called] at sends returned
      cases returned
      exact books.sends lawful ordinary (set.trans sends)
    | raised left =>
      rw [called] at returned
      cases returned
    | hung =>
      rw [called] at returned
      cases returned

theorem sender_initial (now : Nat) (arg : String) :
    Sender config (.ofString arg) (Usender.initial now arg) where
  toPings := ⟨rfl, rfl, rfl, rfl, .nil⟩
  recent := by simp [Usender.initial, Application.initial]
  due := by simp [Usender.initial, Application.initial, Timer.expiresAfter, Timer.idle]
  oneChain := rfl
  begun := by simp [Usender.initial, Application.initial, NetClient.initial, NetClient.start]

/-- In every run of `usender`, the pings are sent in their order and with two seconds between them at least,
from the authentication on and without an end. -/
theorem paced_pings (lawful : json.Lawful) (ordinary : config.appName ≠ "userver") (pid now : Nat)
    (arg : String) (events : List UsenderEvent) :
    Always (Usender.step json config pid) (Paced json config pid (.ofString arg)) (Usender.initial now arg)
      events := by
  have invariant : Always (Usender.step json config pid)
      (fun app => Sender config (.ofString arg) app ∧ ∃ account, Books json config pid app account)
      (Usender.initial now arg) events := by
    apply always_of_invariant
    · rintro app after e ⟨sender, account, books⟩ next
      have single : Single app.client := books.client ▸ books.custody.single
      obtain ⟨es, account', -, books'⟩ := usender_simulates lawful ordinary pid books next
      exact ⟨sender_step lawful ordinary single sender next, account', books'⟩
    · exact ⟨sender_initial now arg, _, books_initial now _⟩
  apply invariant.mono
  rintro app ⟨sender, ⟨client, accepted⟩, books⟩
  obtain rfl : client = app.client := books.client
  exact ⟨sender.sound, sender.numbered, sender.spaced, sender.oneChain, accepted,
    books.custody.exactlyOnce, books.entries⟩

/-- The server is found, the application is authenticated, and two seconds later it sends the second
ping. -/
theorem paced_pings_begin :
    Always (Usender.step Json.compactJson ⟨"alpha", "usender"⟩ 7)
      (Paced Json.compactJson ⟨"alpha", "usender"⟩ 7 (.ofString "uecho@beta"))
      (Usender.initial 0 "uecho@beta")
      [.client (.resolved (some "127.0.0.1")), .client (.connectHandler 0 true),
        .client (.received 0 (serviceHeader ⟨"alpha", "userver"⟩ "auth") (.tree .empty)),
        .client (.tick 2000000000), .fire, .onSendTimer 0] :=
  paced_pings Json.compactJson_lawful (by decide) 7 0 "uecho@beta" _

end Runs

end Uzel.Verified.PingPacing
