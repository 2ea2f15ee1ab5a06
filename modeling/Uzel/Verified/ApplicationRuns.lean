import Mathlib.Data.List.Forall2
import Uzel.Application
import Uzel.Verified.ClientCustody

/-! # Runs of applications

Whatever an application does with its client, it does by `send`.  So a run of an application is a run of
its client, with the sends as events of their own (`application_simulates`), and the messages that its
client has accepted are the ones that the application has given to it, behind the message of the
authentication.
-/

namespace Uzel.Verified.ApplicationRuns

open Foundation SingleConnection ClientCustody

/-- What a handler does to an application: it changes what is the application's own, and it sends. -/
inductive Sends {σ : Type*} (json : JsonCodec) : Application σ → Application σ → Prop
  | quiet {app after : Application σ} (client : after.client = app.client) (given : after.given = app.given) :
      Sends json app after
  | queued {app after : Application σ} {msg : Msg} {client : NetClient}
      (sent : app.client.send json msg = some (.done client)) (isClient : after.client = client)
      (given : after.given = app.given ++ [(app.client.store.now, msg)]) : Sends json app after
  | refused {app after : Application σ} {msg : Msg} {client : NetClient}
      (sent : app.client.send json msg = some (.raised client)) (isClient : after.client = client)
      (given : after.given = app.given) : Sends json app after
  | trans {app middle after : Application σ} (first : Sends json app middle)
      (second : Sends json middle after) : Sends json app after

/-- The handlers of the application do nothing else. -/
structure Polite {σ : Type*} (json : JsonCodec) (wiring : Wiring σ) : Prop where
  authSuccess : ∀ app, (wiring.authSuccess app).All (Sends json app)
  handlers : ∀ cname, ∀ handler ∈ wiring.dispatcher.handlers cname, ∀ msg app,
    (handler msg app).All fun left => Sends json app left.2
  anyPost : ∀ handler ∈ wiring.dispatcher.anyPost, ∀ msg app,
    (handler msg app).All fun left => Sends json app left.2

section Handling

variable {σ : Type*} {json : JsonCodec} {app after : Application σ} {wiring : Wiring σ}

theorem sends_send (msg : Msg) (app : Application σ) : (app.send json msg).All (Sends json app) := by
  unfold Application.send
  cases sent : app.client.send json msg with
  | none => exact .quiet rfl rfl
  | some outcome =>
    cases outcome with
    | done client => exact .queued sent rfl rfl
    | raised client => exact .refused sent rfl rfl
    | hung => trivial

theorem sends_runHandlers {handlers : List (Handler (Application σ))}
    (each : ∀ handler ∈ handlers, ∀ msg app, (handler msg app).All fun left => Sends json app left.2)
    (msg : Msg) (app : Application σ) :
    (MsgDispatcher.runHandlers handlers (msg, app)).All fun left => Sends json app left.2 := by
  apply @Outcome.All.forEach (Msg × Application σ) _ fun left => Sends json app left.2
  · rintro handler member ⟨msg', middle⟩ before
    apply Outcome.All.attempt
    exact (each handler member msg' middle).mono fun _ later => before.trans later
  · exact .quiet rfl rfl

theorem sends_dispatch (polite : Polite json wiring) (msg : Msg) (app : Application σ) :
    (wiring.dispatcher.dispatch msg app).All fun left => Sends json app left.2 := by
  unfold MsgDispatcher.dispatch
  cases msg.cname with
  | none => exact .quiet rfl rfl
  | some cname =>
    apply Outcome.All.andThen
    · apply sends_runHandlers
      intro handler member
      split at member
      · exact polite.handlers cname handler member
      · cases member
    · rintro ⟨msg', middle⟩ before
      exact (sends_runHandlers polite.anyPost msg' middle).mono fun _ later => before.trans later

/-- The task of the dispatcher raises only when the message has no name, before any handler is called. -/
theorem dispatch_raised {msg : Msg} {left : Msg × Application σ}
    (raised : wiring.dispatcher.dispatch msg app = .raised left) :
    msg.cname = none ∧ left = (msg, app) := by
  have guarded : ∀ (handlers : List (Handler (Application σ))) start left,
      MsgDispatcher.runHandlers handlers start ≠ .raised left := by
    intro handlers
    induction handlers with
    | nil => exact fun _ _ same => by cases same
    | cons handler handlers inductionHypothesis =>
      rintro start left same
      simp only [MsgDispatcher.runHandlers, Outcome.forEach] at same
      rcases (handler start.1 start.2).attempt_cases with ⟨next, -, returns⟩ | ⟨-, hangs⟩
      · rw [returns] at same
        exact inductionHypothesis next left same
      · rw [hangs] at same
        cases same
  unfold MsgDispatcher.dispatch at raised
  cases named : msg.cname with
  | none =>
    simp only [named, Outcome.raised.injEq] at raised
    exact ⟨rfl, raised.symm⟩
  | some cname =>
    simp only [named] at raised
    cases first : MsgDispatcher.runHandlers (if msg.toMe then wiring.dispatcher.handlers cname else [])
        (msg, app) with
    | done middle =>
      rw [first] at raised
      exact absurd raised (guarded _ _ _)
    | raised middle => exact absurd first (guarded _ _ _)
    | hung =>
      rw [first] at raised
      cases raised

theorem send_cases {client : NetClient} {msg : Msg} {outcome : Outcome NetClient}
    (sent : client.send json msg = some outcome) : ∃ sid, client.locals.lookup "userver" = some sid ∧
      outcome = (client.store.putOutQueue json sid msg).map client.withStore := by
  obtain ⟨sid, registered, rfl⟩ := Option.map_eq_some_iff.mp sent
  exact ⟨sid, registered, rfl⟩

theorem send_reading {client : NetClient} {msg : Msg} {outcome : Outcome NetClient}
    (sent : client.send json msg = some outcome) (sid : SessionId) :
    outcome.All fun left => (left.store.session sid).reading = (client.store.session sid).reading := by
  obtain ⟨peer, -, rfl⟩ := send_cases sent
  apply Outcome.all_map.mpr
  exact (Sessions.carries_putOutQueue Session.carried_reading json peer msg client.store).mono
    fun _ carries => carries sid

/-- A dispatcher with one handler calls it for the messages of its name that are for this application. -/
theorem dispatch_named {name : String} {handler : Handler (Application σ)} {msg : Msg}
    (named : msg.cname = some name) (toMe : msg.toMe = true) :
    MsgDispatcher.dispatch ⟨fun cname => if cname = name then [handler] else [], []⟩ msg app =
      (handler msg app).attempt := by
  simp only [MsgDispatcher.dispatch, named, toMe, if_true, MsgDispatcher.runHandlers, Outcome.forEach]
  cases handler msg app <;> rfl

theorem dispatch_single {name : String} {handler : Handler (Application σ)} {msg msg' : Msg}
    (dispatched : MsgDispatcher.dispatch ⟨fun cname => if cname = name then [handler] else [], []⟩ msg app =
      .done (msg', after)) :
    (msg.cname = some name ∧ msg.toMe = true ∧ (handler msg app).final = some (msg', after)) ∨
      (¬ (msg.cname = some name ∧ msg.toMe = true) ∧ after = app) := by
  by_cases called : msg.cname = some name ∧ msg.toMe = true
  · obtain ⟨named, toMe⟩ := called
    rw [dispatch_named named toMe] at dispatched
    refine .inl ⟨named, toMe, ?_⟩
    rcases (handler msg app).attempt_cases with ⟨left, final, returns⟩ | ⟨-, hangs⟩
    · rw [returns] at dispatched
      cases dispatched
      exact final
    · rw [hangs] at dispatched
      cases dispatched
  · refine .inr ⟨called, ?_⟩
    unfold MsgDispatcher.dispatch at dispatched
    cases named : msg.cname with
    | none => simp [named] at dispatched
    | some cname =>
      have nobody : (if msg.toMe = true then if cname = name then [handler] else [] else []) = [] := by
        split_ifs with toMe same
        · exact absurd ⟨by rw [named, same], toMe⟩ called
        all_goals rfl
      simp only [named, nobody, MsgDispatcher.runHandlers, Outcome.forEach] at dispatched
      cases dispatched
      rfl

theorem Sends.reading (sends : Sends json app after) (sid : SessionId) :
    (after.client.store.session sid).reading = (app.client.store.session sid).reading := by
  induction sends with
  | quiet client => rw [client]
  | queued sent isClient =>
    have same := send_reading sent sid
    rw [isClient]
    exact same
  | refused sent isClient =>
    have same := send_reading sent sid
    rw [isClient]
    exact same
  | trans _ _ first second => exact second.trans first

end Handling

/-! ## One message of the input -/

section Receiving

variable {σ : Type*} {json : JsonCodec} {config : UConfig} {wiring : Wiring σ} {app after : Application σ}
  {sid : SessionId} {header : PTree} {body : Body}

/-- The application after the dispatcher has been given the message. -/
def hears (config : UConfig) (sid : SessionId) (header : PTree) (body : Body) (app : Application σ) :
    Application σ :=
  { app with heard := app.heard ++ [Msg.incoming config header body (some sid)] }

/-- What becomes of a message: it is handled, or it has no name, or it is the first one of the peer, which
the client accepts or refuses. -/
inductive Receives (json : JsonCodec) (config : UConfig) (wiring : Wiring σ) (sid : SessionId)
    (header : PTree) (body : Body) (app after : Application σ) : Prop
  | handled {msg : Msg} (known : (app.client.store.session sid).authenticated = true)
      (dispatched : wiring.dispatcher.dispatch (Msg.incoming config header body (some sid))
        (hears config sid header body app) = .done (msg, after))
  | unnamed (known : (app.client.store.session sid).authenticated = true)
      (nameless : (Msg.incoming config header body (some sid)).cname = none)
      (pending : (app.client.store.session sid).reading = .pending)
      (same : after = (hears config sid header body app).withClient (app.client.readFailed sid))
  | welcomed {client : NetClient} {left : Application σ}
      (unknown : (app.client.store.session sid).authenticated = false)
      (pending : (client.store.session sid).reading = .pending)
      (received : app.client.received json config sid header body = some client)
      (unregistered : app.client.locals.lookup "userver" = none)
      (registered : client.locals.lookup "userver" = some sid)
      (called : (wiring.authSuccess (app.withClient client)).final = some left)
      (same : after = left ∨ wiring.authSuccess (app.withClient client) = .raised left ∧
        after = left.withClient (left.client.readFailed sid))
  | refused {client : NetClient} (unknown : (app.client.store.session sid).authenticated = false)
      (received : app.client.received json config sid header body = some client)
      (locals : client.locals = app.client.locals) (same : after = app.withClient client)

theorem receives_known (known : (app.client.store.session sid).authenticated = true)
    (next : app.received json config wiring sid header body = some after) :
    Receives json config wiring sid header body app after := by
  simp only [Application.received] at next
  split at next
  next pending =>
    have dispatched : app.dispatchMsg json config wiring sid header body =
        (wiring.dispatcher.dispatch (Msg.incoming config header body (some sid))
          (hears config sid header body app)).map Prod.snd := by
      simp only [Application.dispatchMsg, known, if_true]
      rfl
    rw [dispatched] at next
    cases outcome : wiring.dispatcher.dispatch (Msg.incoming config header body (some sid))
        (hears config sid header body app) with
    | done left =>
      rw [outcome] at next
      cases next
      exact .handled known outcome
    | raised left =>
      obtain ⟨nameless, rfl⟩ := dispatch_raised outcome
      rw [outcome] at next
      cases body with
      | raw bytes => cases next
      | tree tree =>
        cases next
        exact .unnamed known nameless pending rfl
    | hung =>
      rw [outcome] at next
      cases next
  next => cases next

/-- The first message of a session is the client's, up to the slot of the application. -/
theorem dispatchMsg_unknown (ordinary : config.appName ≠ "userver") (single : Single app.client)
    (current : Current app.client sid) (unknown : (app.client.store.session sid).authenticated = false) :
    (∃ client, app.client.dispatchMsg json config sid header body = .done client ∧
        client.locals.lookup "userver" = some sid ∧
        (client.store.session sid).reading = (app.client.store.session sid).reading ∧
        app.dispatchMsg json config wiring sid header body = wiring.authSuccess (app.withClient client)) ∨
      (app.dispatchMsg json config wiring sid header body =
          (app.client.dispatchMsg json config sid header body).map app.withClient ∧
        (app.client.dispatchMsg json config sid header body).All fun client =>
          client.locals = app.client.locals) := by
  generalize isMsg : Msg.incoming config header body (some sid) = msg
  simp only [Application.dispatchMsg, NetClient.dispatchMsg, isMsg, unknown, Bool.false_eq_true, if_false]
  cases passed : Session.authenticate config msg with
  | true =>
    obtain ⟨fromLocal, userver⟩ := authenticate_ordinary ordinary passed
    generalize isMarked : { app.client.store.session sid with msg1 := some msg } = marked
    generalize isClient : app.client.withStore (app.client.store.set sid marked) = client
    have known : (client.store.session sid).msg1 = some msg := by
      simp [← isClient, NetClient.withStore, ← isMarked]
    have unregistered : client.locals.lookup "userver" = none := by
      rw [← isClient]
      exact single.unregistered current unknown
    have authed := @auth_userver json config client sid msg known fromLocal userver unregistered
    refine .inl ⟨{ client with locals := client.locals.insert "userver" sid },
      (if_pos rfl).trans authed, AList.lookup_insert _, ?_, ?_⟩
    · simp [← isClient, NetClient.withStore, ← isMarked]
    · have known' : ((app.withClient client).client.store.session sid).msg1 = some msg := known
      simp only [if_true, Application.auth, known', fromLocal]
      show ((client.auth json config sid).map _).andThen _ = _
      rw [authed]
      rfl
  | false =>
    refine .inr ⟨?_, ?_⟩
    · simp only [Bool.false_eq_true, if_false]
      cases app.client.store.gracefullClose json config sid "authentication failed" <;> rfl
    · simp only [Bool.false_eq_true, if_false]
      cases app.client.store.gracefullClose json config sid "authentication failed" <;> trivial

theorem receives_unknown (lawful : json.Lawful) (ordinary : config.appName ≠ "userver")
    (single : Single app.client) (unknown : (app.client.store.session sid).authenticated = false)
    (next : app.received json config wiring sid header body = some after) :
    Receives json config wiring sid header body app after := by
  simp only [Application.received] at next
  split at next
  next pending =>
    have touched : ¬ Untouched (app.client.store.session sid) := by
      intro untouched
      cases untouched.reading.symm.trans pending
    obtain ⟨current, connected⟩ := single.current touched
    have unregistered := single.unregistered current unknown
    have received : ∀ {client}, app.client.dispatchMsg json config sid header body = .done client →
        app.client.received json config sid header body = some client := by
      intro client done
      simp only [NetClient.received, pending, if_true, done]
    rcases @dispatchMsg_unknown _ json config wiring app sid header body ordinary single current unknown with
      ⟨client, done, registered, reading, same⟩ | ⟨same, locals⟩
    · rw [same] at next
      have pending' := reading.trans pending
      cases called : wiring.authSuccess (app.withClient client) with
      | done left =>
        rw [called] at next
        cases next
        exact .welcomed unknown pending' (received done) unregistered registered
          (congrArg Outcome.final called) (.inl rfl)
      | raised left =>
        rw [called] at next
        cases body with
        | raw bytes => cases next
        | tree tree =>
          cases next
          exact .welcomed unknown pending' (received done) unregistered registered
            (congrArg Outcome.final called) (.inr ⟨called, rfl⟩)
      | hung =>
        rw [called] at next
        cases next
    · rcases does_dispatchMsg lawful ordinary single current connected header body with
        ⟨-, known⟩ | ⟨client, done, -⟩
      · rw [unknown] at known
        cases known
      · rw [done] at same locals
        rw [same] at next
        cases next
        exact .refused unknown (received done) locals rfl
  next => cases next

theorem received_cases (lawful : json.Lawful) (ordinary : config.appName ≠ "userver")
    (single : Single app.client) (next : app.received json config wiring sid header body = some after) :
    Receives json config wiring sid header body app after := by
  cases known : (app.client.store.session sid).authenticated with
  | true => exact receives_known known next
  | false => exact receives_unknown lawful ordinary single known next

end Receiving

/-! ## The client behind an application -/

/-- The queued message was made from what the application has sent, at that time. -/
def Records (json : JsonCodec) (entry : Nat × Msg) (queued : QueuedMsg) : Prop :=
  entry.2.charvec json = some queued.rawmsg ∧ queued.enqueueTime = entry.1

/-- The messages that the client has accepted are the one for the authentication and those that the
application has given to it. -/
def Entries (json : JsonCodec) (config : UConfig) (pid : Nat) (accepted : List QueuedMsg)
    (given : List (Nat × Msg)) : Prop :=
  (accepted = [] ∧ given = []) ∨ ∃ first rest, accepted = first :: rest ∧
    (Session.authMsg config pid).charvec json = some first.rawmsg ∧ List.Forall₂ (Records json) given rest

structure Books {σ : Type*} (json : JsonCodec) (config : UConfig) (pid : Nat) (app : Application σ)
    (account : Account) : Prop where
  client : account.client = app.client
  custody : Custody account
  entries : Entries json config pid account.accepted app.given

section Simulation

variable {σ : Type*} {json : JsonCodec} {config : UConfig} {pid : Nat} {wiring : Wiring σ}
  {app after : Application σ} {account : Account}

theorem custody_step (lawful : json.Lawful) (ordinary : config.appName ≠ "userver") {s t : NetClient}
    {accepted : List QueuedMsg} (custody : Custody ⟨s, accepted⟩) {e : ClientEvent}
    (next : s.step json config pid e = some t) :
    Custody ⟨t, accepted ++ accepts json config pid s e⟩ :=
  custody_does custody (does_step lawful ordinary custody.single next)

theorem exec_account {s t : NetClient} {accepted : List QueuedMsg} {e : ClientEvent}
    (next : s.step json config pid e = some t) :
    exec (Account.step json config pid) ⟨s, accepted⟩ [e] =
      some ⟨t, accepted ++ accepts json config pid s e⟩ := by
  rw [exec_singleton]
  simp only [Account.step, next, Option.map_some]

/-- A step of the client in which it accepts nothing. -/
theorem Books.step (lawful : json.Lawful) (ordinary : config.appName ≠ "userver")
    (books : Books json config pid app account) {e : ClientEvent}
    (next : app.client.step json config pid e = some after.client) (given : after.given = app.given)
    (none_ : accepts json config pid app.client e = []) :
    ∃ es account', exec (Account.step json config pid) account es = some account' ∧
      Books json config pid after account' := by
  obtain ⟨client, accepted⟩ := account
  obtain rfl : client = app.client := books.client
  have kept := custody_step lawful ordinary books.custody next
  rw [none_, List.append_nil] at kept
  refine ⟨[e], _, exec_account next, ?_⟩
  rw [none_, List.append_nil]
  exact ⟨rfl, kept, given ▸ books.entries⟩

theorem putOutQueue_cases (sid : SessionId) (msg : Msg) (store : Sessions) :
    (∃ queued after, QueuedMsg.ofMsg json store.now store.nextMsg msg = some queued ∧
        store.putOutQueue json sid msg = .done after) ∨
      (QueuedMsg.ofMsg json store.now store.nextMsg msg = none ∧
        ∃ after, store.putOutQueue json sid msg = .raised after) := by
  unfold Sessions.putOutQueue Session.putOutQueue
  cases QueuedMsg.ofMsg json store.now store.nextMsg msg with
  | none => exact .inr ⟨rfl, _, rfl⟩
  | some queued => exact .inl ⟨queued, _, rfl, rfl⟩

theorem records_ofMsg {now id : Nat} {msg : Msg} {queued : QueuedMsg}
    (built : QueuedMsg.ofMsg json now id msg = some queued) : Records json (now, msg) queued := by
  obtain ⟨rawmsg, encoded, rfl⟩ := Option.map_eq_some_iff.mp built
  exact ⟨encoded, rfl⟩

theorem Books.send (lawful : json.Lawful) (ordinary : config.appName ≠ "userver")
    (books : Books json config pid app account) {msg : Msg} {client : NetClient}
    (sent : app.client.send json msg = some (.done client)) (isClient : after.client = client)
    (given : after.given = app.given ++ [(app.client.store.now, msg)]) :
    ∃ es account', exec (Account.step json config pid) account es = some account' ∧
      Books json config pid after account' := by
  obtain ⟨s, accepted⟩ := account
  obtain rfl : s = app.client := books.client
  have next : app.client.step json config pid (.send msg) = some client := by
    simp only [NetClient.step, sent, Option.bind_some, Outcome.final_done]
  refine ⟨[.send msg], _, exec_account next, isClient.symm, custody_step lawful ordinary books.custody next, ?_⟩
  obtain ⟨sid, registered, same⟩ := send_cases sent
  rcases @putOutQueue_cases json sid msg app.client.store with
    ⟨queued, store, built, -⟩ | ⟨-, store, raised⟩
  · have one : accepts json config pid app.client (.send msg) = [queued] := by simp [accepts, built]
    rcases books.entries with ⟨noneAccepted, -⟩ | ⟨first, rest, isAccepted, auth, recorded⟩
    · exact absurd noneAccepted (books.custody.begun registered)
    · refine .inr ⟨first, rest ++ [queued], ?_, auth, ?_⟩
      · dsimp only at isAccepted ⊢
        rw [isAccepted, one]
        rfl
      · rw [given]
        exact List.rel_append recorded (.cons (records_ofMsg built) .nil)
  · rw [raised] at same
    cases same

theorem Books.refused (lawful : json.Lawful) (ordinary : config.appName ≠ "userver")
    (books : Books json config pid app account) {msg : Msg} {client : NetClient}
    (sent : app.client.send json msg = some (.raised client)) (isClient : after.client = client)
    (given : after.given = app.given) :
    ∃ es account', exec (Account.step json config pid) account es = some account' ∧
      Books json config pid after account' := by
  have next : app.client.step json config pid (.send msg) = some after.client := by
    simp only [NetClient.step, sent, Option.bind_some, Outcome.final_raised, isClient]
  apply books.step lawful ordinary next given
  obtain ⟨sid, -, same⟩ := send_cases sent
  rcases @putOutQueue_cases json sid msg app.client.store with
    ⟨queued, store, -, done⟩ | ⟨unencodable, -⟩
  · rw [done] at same
    cases same
  · simp [accepts, unencodable]

theorem Books.sends (lawful : json.Lawful) (ordinary : config.appName ≠ "userver")
    (books : Books json config pid app account) (sends : Sends json app after) :
    ∃ es account', exec (Account.step json config pid) account es = some account' ∧
      Books json config pid after account' := by
  induction sends generalizing account with
  | quiet client given => exact ⟨[], account, rfl, ⟨books.client.trans client.symm, books.custody,
      given ▸ books.entries⟩⟩
  | queued sent isClient given => exact books.send lawful ordinary sent isClient given
  | refused sent isClient given => exact books.refused lawful ordinary sent isClient given
  | trans _ _ first second =>
    obtain ⟨es, middle, reached, books'⟩ := first books
    obtain ⟨ds, last, reached', books''⟩ := second books'
    exact ⟨es ++ ds, last, exec_append_some.mpr ⟨middle, reached, reached'⟩, books''⟩

theorem books_initial (now : Nat) (state : σ) :
    Books json config pid (.initial now state) (Account.initial now) :=
  ⟨rfl, custody_initial now, .inl ⟨rfl, rfl⟩⟩

theorem Books.readFailed (lawful : json.Lawful) (ordinary : config.appName ≠ "userver")
    (books : Books json config pid app account) {sid : SessionId}
    (pending : (app.client.store.session sid).reading = .pending)
    (isClient : after.client = app.client.readFailed sid) (given : after.given = app.given) :
    ∃ es account', exec (Account.step json config pid) account es = some account' ∧
      Books json config pid after account' := by
  have next : app.client.step json config pid (.readFailed sid) = some after.client := by
    simp only [NetClient.step, pending, reduceCtorEq, if_false, isClient]
  exact books.step lawful ordinary next given rfl

theorem Books.received (lawful : json.Lawful) (ordinary : config.appName ≠ "userver")
    (polite : Polite json wiring) (books : Books json config pid app account) {sid : SessionId}
    {header : PTree} {body : Body} (created : sid < app.client.nextSession)
    (next : app.received json config wiring sid header body = some after) :
    ∃ es account', exec (Account.step json config pid) account es = some account' ∧
      Books json config pid after account' := by
  have single : Single app.client := books.client ▸ books.custody.single
  have accepted : ∀ {client}, app.client.received json config sid header body = some client →
      app.client.step json config pid (.received sid header body) = some client := by
    intro client received
    simp only [NetClient.step, created, if_true, received]
  cases received_cases lawful ordinary single next with
  | handled known dispatched =>
    have sends := sends_dispatch polite (Msg.incoming config header body (some sid))
      (hears config sid header body app)
    rw [dispatched, Outcome.all_done] at sends
    have quiet : Sends json app (hears config sid header body app) := .quiet rfl rfl
    exact books.sends lawful ordinary (quiet.trans sends)
  | unnamed known nameless pending same =>
    exact books.readFailed lawful ordinary pending (by rw [same]; rfl) (by rw [same]; rfl)
  | @welcomed client left unknown pending received unregistered registered called same =>
    obtain ⟨es, middle, reached, welcome⟩ :=
      @Books.step _ json config pid app (app.withClient client) account lawful ordinary books _
        (accepted received) rfl rfl
    have sends : Sends json (app.withClient client) left :=
      (polite.authSuccess (app.withClient client)).of_final called
    obtain ⟨ds, last, reached', sent⟩ := welcome.sends lawful ordinary sends
    rcases same with rfl | ⟨-, rfl⟩
    · exact ⟨es ++ ds, last, exec_append_some.mpr ⟨middle, reached, reached'⟩, sent⟩
    · -- the slot has raised, and the session ends
      have pending' : (left.client.store.session sid).reading = .pending :=
        (sends.reading sid).trans pending
      obtain ⟨fs, final, reached'', ended⟩ := @Books.readFailed _ json config pid left
        (left.withClient (left.client.readFailed sid)) last lawful ordinary sent sid pending' rfl rfl
      refine ⟨es ++ (ds ++ fs), final, ?_, ended⟩
      exact exec_append_some.mpr ⟨middle, reached, exec_append_some.mpr ⟨last, reached', reached''⟩⟩
  | @refused client unknown received locals same =>
    rw [same]
    exact @Books.step _ json config pid app (app.withClient client) account lawful ordinary books _
      (accepted received) rfl rfl

theorem step_cases {e : ClientEvent} (next : app.step json config wiring pid e = some after) :
    (∃ sid header body, e = .received sid header body ∧ sid < app.client.nextSession ∧
        app.received json config wiring sid header body = some after) ∨
      ((∀ sid header body, e ≠ .received sid header body) ∧ (∀ msg, e ≠ .send msg) ∧
        ∃ client, app.client.step json config pid e = some client ∧ after = app.withClient client) := by
  cases e with
  | received sid header body =>
    simp only [Application.step] at next
    split at next
    next created => exact .inl ⟨sid, header, body, rfl, created, next⟩
    next => cases next
  | send msg => cases next
  | _ => exact .inr (by simpa [Application.step, eq_comm] using next)

theorem Books.connectHandler (lawful : json.Lawful) (ordinary : config.appName ≠ "userver")
    (books : Books json config pid app account) {sid : SessionId} {ok : Bool} {client : NetClient}
    (next : app.client.step json config pid (.connectHandler sid ok) = some client) :
    ∃ es account', exec (Account.step json config pid) account es = some account' ∧
      Books json config pid (app.withClient client) account' := by
  cases ok with
  | false =>
    exact @Books.step _ json config pid app (app.withClient client) account lawful ordinary books _ next rfl
      rfl
  | true =>
    obtain ⟨s, accepted⟩ := account
    obtain rfl : s = app.client := books.client
    refine ⟨_, _, exec_account next, rfl, custody_step lawful ordinary books.custody next, ?_⟩
    have nothing : accepted = [] := by
      simp only [NetClient.step] at next
      split at next
      next created =>
        obtain ⟨outcome, completed, -⟩ := Option.bind_eq_some_iff.mp next
        apply books.custody.nothing created
        simp only [NetClient.connectHandler] at completed
        split at completed
        · cases completed
        next enabled =>
          cases connecting : (app.client.store.session sid).connecting with
          | true => rfl
          | false => simp [connecting] at enabled
      next => cases next
    rcases books.entries with ⟨-, noneGiven⟩ | ⟨first, rest, isAccepted, -⟩
    · obtain ⟨queued, built⟩ : ∃ queued, QueuedMsg.ofMsg json app.client.store.now
          app.client.store.nextMsg (Session.authMsg config pid) = some queued := by
        obtain ⟨queued, built, -⟩ := ofMsg_service config "auth" "pid" (toString pid) lawful
          app.client.store.now app.client.store.nextMsg
        exact ⟨queued, built⟩
      have one : accepts json config pid app.client (.connectHandler sid true) = [queued] := by
        simp [accepts, built]
      refine .inr ⟨queued, [], ?_, (QueuedMsg.ofMsg_eq built).1, ?_⟩
      · rw [nothing, one]
        rfl
      · rw [show (app.withClient client).given = [] from noneGiven]
        exact .nil
    · rw [nothing] at isAccepted
      cases isAccepted

/-- A step of an application is a run of its client. -/
theorem application_simulates (lawful : json.Lawful) (ordinary : config.appName ≠ "userver")
    (polite : Polite json wiring) : Simulates (Application.step json config wiring pid)
      (Account.step json config pid) (Books json config pid) := by
  intro app after account e books next
  rcases step_cases next with ⟨sid, header, body, rfl, created, received⟩ | ⟨-, unsent, client, stepped, rfl⟩
  · exact books.received lawful ordinary polite created received
  · have quiet : accepts json config pid app.client e = [] →
        ∃ es account', exec (Account.step json config pid) account es = some account' ∧
          Books json config pid (app.withClient client) account' :=
      @Books.step _ json config pid app (app.withClient client) account lawful ordinary books _ stepped rfl
    cases e with
    | connectHandler sid ok => exact books.connectHandler lawful ordinary stepped
    | send msg => exact absurd rfl (unsent msg)
    | _ => exact quiet rfl

end Simulation

end Uzel.Verified.ApplicationRuns
