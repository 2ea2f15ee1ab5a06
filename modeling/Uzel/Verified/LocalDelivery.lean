import Uzel.Verified.Delivery
import Uzel.Verified.ReadPath

/-! # Which applications of a node get a message

An address names an application or all of them, on one node or on all.  `local_delivery_iff` compares
the copies that `handleAny` puts into the queues of the applications of its own node with what the
address says.  A broadcast goes to the channels only, so the applications on the own node miss it.
-/

namespace Uzel.Verified.LocalDelivery

open Foundation SelfRouting Delivery

/-- The applications that an address stands for on a node. -/
def Matches (nodeName : String) (dest : Addr) (app : String) : Prop :=
  if dest.node = "" then app = dest.app
  else (dest.node = nodeName ∨ dest.node = "*") ∧ (dest.app = "*" ∨ app = dest.app)

instance (nodeName : String) (dest : Addr) (app : String) : Decidable (Matches nodeName dest app) := by
  unfold Matches
  infer_instance

/-- `n` copies of a message have been put into the queue of a session. -/
def Receives (json : JsonCodec) (msg : Msg) (s t : Server) (sid : SessionId) (n : Nat) : Prop :=
  ∃ copies : MsgQueue, (t.store.session sid).outQueue = (s.store.session sid).outQueue ++ copies ∧
    copies.length = n ∧ ∀ copy ∈ copies, msg.charvec json = some copy.rawmsg

/-- The applications that the address stands for get the message once, and the others do not. -/
def DeliversLocally (json : JsonCodec) (nodeName : String) (s : Server) (msg : Msg) : Prop :=
  ∃ t, (Server.handleAny json msg s).final = some (msg, t) ∧
    ∀ app sid, s.locals.lookup app = some sid →
      Receives json msg s t sid (if Matches nodeName msg.dest app then 1 else 0)

/-- The channels that a message is handed to. -/
def channels (s : Server) (msg : Msg) : List String :=
  match msg.destType with
  | .remote => [msg.dest.node]
  | .broadcast => s.nodeToSession.keys
  | .service | .local | .localbroadcast => []

/-- What is sent to the node goes into the queue of this session. -/
def carries (s : Server) (sid : SessionId) (node : String) : Bool :=
  match s.nodeToSession.lookup node with
  | none => false
  | some remote => remote.connected && remote.sessionH == some sid

/-- A message that can be encoded goes to channels whose sessions are those of the applications it is
for; one that cannot be encoded is for none of them. -/
def Separates (json : JsonCodec) (nodeName : String) (s : Server) (msg : Msg) : Prop :=
  match msg.charvec json with
  | none => ∀ app ∈ s.locals, ¬ Matches nodeName msg.dest app
  | some _ => msg.destType = .remote ∨ msg.destType = .broadcast →
    ∀ app sid, s.locals.lookup app = some sid →
      (channels s msg).countP (carries s sid) = if Matches nodeName msg.dest app then 1 else 0

section Copies

variable {json : JsonCodec} {msg : Msg} {s t u : Server} {sid : SessionId} {n m : Nat} {text : List Char}

theorem Receives.refl (json : JsonCodec) (msg : Msg) (s : Server) (sid : SessionId) :
    Receives json msg s s sid 0 :=
  ⟨[], by simp⟩

theorem Receives.trans (first : Receives json msg s t sid n) (second : Receives json msg t u sid m) :
    Receives json msg s u sid (n + m) := by
  obtain ⟨copies, queue, rfl, copied⟩ := first
  obtain ⟨more, later, rfl, alsoCopied⟩ := second
  refine ⟨copies ++ more, ?_, List.length_append, ?_⟩
  · rw [later, queue, List.append_assoc]
  · intro copy member
    exact (List.mem_append.mp member).elim (copied copy) (alsoCopied copy)

theorem Receives.unique (first : Receives json msg s t sid n) (second : Receives json msg s t sid m) :
    n = m := by
  obtain ⟨copies, queue, rfl, -⟩ := first
  obtain ⟨others, same, rfl, -⟩ := second
  rw [List.append_cancel_left (queue.symm.trans same)]

theorem receives_of_enqueues {recipients : SessionId → Prop} [DecidablePred recipients]
    (encoded : msg.charvec json = some text) (enqueues : Enqueues recipients text s t) (sid : SessionId) :
    Receives json msg s t sid (if recipients sid then 1 else 0) := by
  split
  next recipient =>
    obtain ⟨queued, isText, queue⟩ := enqueues.once sid recipient
    exact ⟨[queued], queue, rfl, by simp [isText, encoded]⟩
  next other =>
    rw [Receives, enqueues.others sid other]
    exact Receives.refl json msg s sid

/-! ## Channels -/

theorem carries_eq (s : Server) (sid : SessionId) (node : String) :
    carries s sid node = (((s.nodeToSession.lookup node).getD (.new node)).connected &&
      ((s.nodeToSession.lookup node).getD (.new node)).sessionH == some sid) := by
  unfold carries
  cases s.nodeToSession.lookup node with
  | none => rfl
  | some remote => rfl

/-- A connected channel puts a message into the queue of its high priority session, and another one
keeps it; the sessions of the channel stay the same. -/
theorem send_done (encoded : msg.charvec json = some text) (remote : Remote) (store : Sessions) :
    ∃ changed after, remote.send json msg store = .done (changed, after) ∧
      changed.connected = remote.connected ∧ changed.sessionH = remote.sessionH ∧
      ((∃ high, remote.sessionH = some high ∧ remote.connected = true ∧
          store.putOutQueue json high msg = .done after) ∨
        (remote.connected = false ∧ after.session = store.session)) := by
  have built : QueuedMsg.ofMsg json store.now store.nextMsg msg =
      some ⟨text, msg.destType, store.now, store.nextMsg⟩ := by
    rw [QueuedMsg.ofMsg, encoded]
    rfl
  simp only [Remote.send, built]
  cases isHigh : remote.sessionH with
  | none =>
    exact ⟨_, _, rfl, by simp [Remote.connected, isHigh], rfl,
      .inr ⟨by simp [Remote.connected, isHigh], rfl⟩⟩
  | some high =>
    cases isLow : remote.sessionL with
    | none =>
      exact ⟨_, _, rfl, by simp [Remote.connected, isHigh, isLow], rfl,
        .inr ⟨by simp [Remote.connected, isLow], rfl⟩⟩
    | some low =>
      have connected : remote.connected = true := by simp [Remote.connected, isHigh, isLow]
      obtain ⟨after, put⟩ : ∃ after, store.putOutQueue json high msg = .done after := by
        simp only [Sessions.putOutQueue, Session.putOutQueue, built, Outcome.map_done]
        exact ⟨_, rfl⟩
      simp only [put, Outcome.map_done]
      exact ⟨_, _, rfl, by simp [Remote.connected, isHigh, isLow], rfl, .inl ⟨high, rfl, connected, put⟩⟩

/-- A channel passes a message to its session, if it is connected, and every channel keeps its
session. -/
theorem receives_sendTo (encoded : msg.charvec json = some text) (node : String) (s : Server) :
    ∃ t, s.sendTo json node msg = .done t ∧
      (∀ sid, Receives json msg s t sid (if carries s sid node then 1 else 0)) ∧
      ∀ sid, carries t sid = carries s sid := by
  obtain ⟨changed, after, sent, connected, high, queued⟩ :=
    send_done encoded ((s.nodeToSession.lookup node).getD (.new node)) s.store
  refine ⟨s.setRemote node (changed, after), ?_, ?_, ?_⟩
  · simp only [Server.sendTo, Server.onRemote, sent, Outcome.map_done]
  · intro sid
    rw [carries_eq]
    cases queued with
    | inl isConnected =>
      obtain ⟨owner, isHigh, isConnected, put⟩ := isConnected
      obtain ⟨_, _, _, same, enqueues⟩ := enqueues_put encoded owner s
      obtain rfl : after = _ := Outcome.done.inj (put.symm.trans same)
      have receives : Receives json msg s (s.setRemote node (changed, after)) sid
          (if sid = owner then 1 else 0) := receives_of_enqueues encoded enqueues sid
      by_cases owned : sid = owner
      · subst owned
        simpa [isHigh, isConnected] using receives
      · simpa [isHigh, isConnected, owned, Ne.symm owned] using receives
    | inr isOpen =>
      rw [isOpen.1, Bool.false_and, if_neg Bool.false_ne_true]
      exact ⟨[], by simp [Server.setRemote, isOpen.2], rfl, List.forall_mem_nil _⟩
  · intro sid
    funext other
    by_cases same : other = node
    · subst same
      rw [carries_eq s]
      simp [carries, connected, high]
    · simp [carries, same]

theorem receives_sends (encoded : msg.charvec json = some text) (nodes : List String) (s : Server) :
    ∃ t, .forEach (fun node server => server.sendTo json node msg) nodes s = Outcome.done t ∧
      ∀ sid, Receives json msg s t sid (nodes.countP (carries s sid)) := by
  induction nodes generalizing s with
  | nil => exact ⟨s, rfl, Receives.refl json msg s⟩
  | cons node nodes inductionHypothesis =>
    obtain ⟨t, sent, first, same⟩ := receives_sendTo encoded node s
    obtain ⟨u, others, later⟩ := inductionHypothesis t
    refine ⟨u, by rw [Outcome.forEach, sent, Outcome.andThen_done, others], ?_⟩
    intro sid
    rw [List.countP_cons, Nat.add_comm, ← same sid]
    exact (same sid ▸ first sid).trans (later sid)

end Copies

/-! ## Routing -/

section Routing

variable {json : JsonCodec} {nodeName : String} {s : Server} {header : PTree} {body : Body}
  {origin : Option SessionId}

/-- The number of copies that the session of an application gets. -/
def copies (nodeName : String) (s : Server) (msg : Msg) (app : String) (sid : SessionId) : Nat :=
  match msg.destType with
  | .remote | .broadcast => (channels s msg).countP (carries s sid)
  | .service | .local | .localbroadcast => if Matches nodeName msg.dest app then 1 else 0

/-- What the kind of a message says about the address. -/
theorem matches_of_kind {msg : Msg} (inStep : msg.InStep ⟨nodeName, "userver"⟩) {app : String}
    (named : app ≠ "") :
    (msg.destType = .service → ¬ Matches nodeName msg.dest app) ∧
      (msg.destType = .local → (Matches nodeName msg.dest app ↔ app = msg.dest.app)) ∧
      (msg.destType = .localbroadcast → Matches nodeName msg.dest app) := by
  rw [inStep.destType, inStep.dest]
  unfold Matches Msg.destTypeOf
  dsimp only
  split_ifs
  all_goals simp_all

theorem handleAny_encoded {msg : Msg} {text : List Char} (routes : RoutesApart nodeName s)
    (inStep : msg.InStep ⟨nodeName, "userver"⟩) (encoded : msg.charvec json = some text) :
    ∃ t, Server.handleAny json msg s = .done (msg, t) ∧ ∀ app sid, s.locals.lookup app = some sid →
      Receives json msg s t sid (copies nodeName s msg app sid) := by
  have named : ∀ {app sid}, s.locals.lookup app = some sid → app ≠ "" := fun registered =>
    (routes.applications _ (AList.lookup_isSome.mp (by simp [registered]))).2
  unfold Server.handleAny copies channels
  cases kind : msg.destType with
  | service =>
    refine ⟨s, rfl, fun app sid registered => ?_⟩
    rw [if_neg ((matches_of_kind inStep (named registered)).1 kind)]
    exact Receives.refl json msg s sid
  | «local» =>
    have isApp : ∀ {app sid}, s.locals.lookup app = some sid →
        (Matches nodeName msg.dest app ↔ app = msg.dest.app) := fun registered =>
      (matches_of_kind inStep (named registered)).2.1 kind
    simp only [Server.handleLocalMsg]
    cases owner : s.locals.lookup msg.dest.app with
    | none =>
      refine ⟨s, rfl, fun app sid registered => ?_⟩
      have other : ¬ Matches nodeName msg.dest app := by
        rw [isApp registered]
        rintro rfl
        simp [owner] at registered
      rw [if_neg other]
      exact Receives.refl json msg s sid
    | some high =>
      obtain ⟨_, after, _, put, enqueues⟩ := enqueues_put encoded high s
      refine ⟨s.withStore after, by simp only [Server.putOutQueue, put, Outcome.map_done], ?_⟩
      intro app sid registered
      have receives := receives_of_enqueues encoded enqueues sid
      -- the sessions of two applications differ
      have same : sid = high ↔ Matches nodeName msg.dest app := by
        rw [isApp registered]
        constructor
        · rintro rfl
          have first := (routes.sessions app sid registered).2
          have second := (routes.sessions _ sid owner).2
          exact Option.some.inj (first.symm.trans second)
        · rintro rfl
          exact Option.some.inj (registered.symm.trans owner)
      simpa only [same] using receives
  | localbroadcast =>
    obtain ⟨distinct, members⟩ := mem_locals routes
    obtain ⟨t, put, enqueues, -⟩ := enqueues_forEach encoded distinct s
    refine ⟨t, by simp only [Server.handleLocalBroadcastMsg, put, Outcome.map_done], ?_⟩
    intro app sid registered
    rw [if_pos ((matches_of_kind inStep (named registered)).2.2 kind)]
    obtain ⟨queued, isText, queue⟩ := enqueues.once sid ((members sid).mpr ⟨app, registered⟩)
    exact ⟨[queued], queue, rfl, by simp [isText, encoded]⟩
  | remote =>
    obtain ⟨t, sent, receives, -⟩ := receives_sendTo encoded msg.dest.node s
    refine ⟨t, by simp only [Server.handleRemoteMsg, Server.route, sent, Outcome.map_done], ?_⟩
    intro app sid _
    simpa [List.countP_cons] using receives sid
  | broadcast =>
    obtain ⟨t, sent, receives⟩ := receives_sends encoded s.nodeToSession.keys s
    exact ⟨t, by simp only [Server.handleBroadcastMsg, sent, Outcome.map_done],
      fun _ sid _ => receives sid⟩

/-- A message that cannot be encoded gets into no queue. -/
theorem handleAny_unencoded {msg : Msg} (unencoded : msg.charvec json = none) (s : Server) :
    ∃ t, (Server.handleAny json msg s).final = some (msg, t) ∧ ∀ sid, Receives json msg s t sid 0 := by
  have unbuilt : ∀ now id, QueuedMsg.ofMsg json now id msg = none := by simp [QueuedMsg.ofMsg, unencoded]
  have kept : (Server.handleAny json msg s).All fun left =>
      ∀ sid, left.2.store.session sid = s.store.session sid := by
    apply Server.all_handleAny (P := fun t : Server => ∀ sid, t.store.session sid = s.store.session sid)
    · exact fun _ => rfl
    · intro app sid t _ same
      simp only [Server.putOutQueue, Sessions.putOutQueue, Session.putOutQueue, unbuilt, Outcome.map_raised]
      intro other
      simpa [Server.withStore] using same other
    · intro node t _ same
      simp only [Server.sendTo, Server.onRemote, Remote.send, unbuilt, Outcome.map_raised]
      exact same
  have ends : (Server.handleAny json msg s).Ends := ReadPath.ends_handleAny msg s
  obtain ⟨left, final, -⟩ := ends.attempt
  have unchanged := kept.of_final final
  obtain ⟨t, _, rfl⟩ := Option.map_eq_some_iff.mp ((Outcome.final_map (msg, ·) _).symm.trans final)
  refine ⟨t, final, fun sid => ?_⟩
  rw [Receives, unchanged sid]
  exact Receives.refl json msg s sid

theorem deliversLocally_iff {msg : Msg} (routes : RoutesApart nodeName s)
    (inStep : msg.InStep ⟨nodeName, "userver"⟩) :
    DeliversLocally json nodeName s msg ↔ Separates json nodeName s msg := by
  -- the number of copies that a session gets is determined by the state
  have counted : ∀ {t} (number : String → SessionId → Nat),
      (Server.handleAny json msg s).final = some (msg, t) →
      (∀ app sid, s.locals.lookup app = some sid → Receives json msg s t sid (number app sid)) →
      (DeliversLocally json nodeName s msg ↔ ∀ app sid, s.locals.lookup app = some sid →
        number app sid = if Matches nodeName msg.dest app then 1 else 0) := by
    intro t number final receives
    constructor
    · rintro ⟨other, same, expected⟩ app sid registered
      rw [final] at same
      cases same
      exact (receives app sid registered).unique (expected app sid registered)
    · intro right
      exact ⟨t, final, fun app sid registered =>
        right app sid registered ▸ receives app sid registered⟩
  unfold Separates
  cases encoded : msg.charvec json with
  | none =>
    obtain ⟨t, final, receives⟩ := @handleAny_unencoded json msg encoded s
    rw [counted (fun _ _ => 0) final fun _ sid _ => receives sid]
    constructor
    · intro none_ app member matched
      obtain ⟨sid, registered⟩ := Option.isSome_iff_exists.mp (AList.lookup_isSome.mpr member)
      have zero := none_ app sid registered
      rw [if_pos matched] at zero
      cases zero
    · intro none_ app sid registered
      rw [if_neg (none_ app (AList.lookup_isSome.mp (by simp [registered])))]
  | some text =>
    obtain ⟨t, handled, receives⟩ := handleAny_encoded routes inStep encoded
    rw [counted (copies nodeName s msg) (by rw [handled]; rfl) receives]
    unfold copies
    cases kind : msg.destType with
    | service | «local» | localbroadcast => simp
    | remote | broadcast => simp

end Routing

/-- In every state that a userver reaches, the messages that go to the right applications of its node
are exactly those that are handed to channels, if they are, which lead to no application of the node
that the message is not for and to each that it is for. -/
theorem local_delivery_iff {json : JsonCodec} (lawful : json.Lawful) (nodeName : String) (pid now : Nat)
    (remotes : List String) (events : List ServerEvent) :
    Always (Server.step json ⟨nodeName, "userver"⟩ pid)
      (fun s => ∀ header body origin,
        DeliversLocally json nodeName s (.incoming ⟨nodeName, "userver"⟩ header body origin) ↔
          Separates json nodeName s (.incoming ⟨nodeName, "userver"⟩ header body origin))
      (.initial ⟨nodeName, "userver"⟩ now remotes) events := by
  apply (always_of_invariant (apart_step lawful) (apart_initial now remotes) events).mono
  intro s apart header body origin
  exact deliversLocally_iff apart.routes ⟨by simp, by simp, by simp⟩

/-- `uecho` has connected itself to the userver of `beta`. -/
def uechoJoins : List ServerEvent :=
  [.accept "127.0.0.1", .received 0 (serviceHeader ⟨"beta", "uecho"⟩ "auth") (.tree .empty)]

/-- A message to it goes to its session. -/
theorem local_delivery_uecho :
    ∃ s, exec (Server.step Json.compactJson ⟨"beta", "userver"⟩ 1)
        (.initial ⟨"beta", "userver"⟩ 0 []) uechoJoins = some s ∧
      DeliversLocally Json.compactJson "beta" s (.incoming ⟨"beta", "userver"⟩
        (Msg.outgoing ⟨"alpha", "usender"⟩ ⟨"uecho", "beta"⟩ "ping" .empty).header (.tree .empty)
        (some 1)) := by
  refine ⟨_, rfl, ?_⟩
  have always := local_delivery_iff Json.compactJson_lawful "beta" 1 0 [] uechoJoins
  apply (always.last rfl _ _ _).mpr
  unfold Separates
  split
  next unencoded => cases unencoded
  next =>
    rintro (isRemote | isBroadcast)
    · cases isRemote
    · cases isBroadcast

/-- A message to all applications `uecho` does not go to the one on the own node. -/
theorem broadcast_misses_uecho :
    ∃ s, exec (Server.step Json.compactJson ⟨"beta", "userver"⟩ 1)
        (.initial ⟨"beta", "userver"⟩ 0 []) uechoJoins = some s ∧
      ¬ DeliversLocally Json.compactJson "beta" s (.incoming ⟨"beta", "userver"⟩
        (Msg.outgoing ⟨"alpha", "usender"⟩ ⟨"uecho", "*"⟩ "ping" .empty).header (.tree .empty)
        (some 1)) := by
  refine ⟨_, rfl, ?_⟩
  rintro ⟨t, ⟨rfl⟩, delivers⟩
  obtain ⟨copies, queue, one, -⟩ := delivers "uecho" 0 rfl
  obtain rfl : copies = [] := List.self_eq_append_right.mp queue
  cases one

end Uzel.Verified.LocalDelivery
