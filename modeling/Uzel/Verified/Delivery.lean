import Uzel.Chronicle
import Uzel.Verified.Protocol
import Uzel.Verified.SelfRouting

/-! # A message reaches its application, and so does the reply

The header of a message is classified three times on its way: by the server that an application hands
it to, by the server that it is relayed to, and by the application that answers it.  Here the three
agree: the message is put into the queue of the right session, once, and into no other.
-/

namespace Uzel.Verified.Delivery

open Foundation Protocol WireRoundTrip SelfRouting

/-! ## What a server does with one message -/

/-- The recipients get one more message each, with this text, and no other session is touched. -/
structure Enqueues (recipients : SessionId → Prop) (text : List Char) (s t : Server) : Prop where
  once : ∀ sid, recipients sid → ∃ queued : QueuedMsg, queued.rawmsg = text ∧
    (t.store.session sid).outQueue = (s.store.session sid).outQueue ++ [queued]
  others : ∀ sid, ¬ recipients sid → t.store.session sid = s.store.session sid

/-- The sessions of `m_locals` that the name of an application stands for. -/
def Recipients (s : Server) (app : String) (sid : SessionId) : Prop :=
  if app = "*" then ∃ registered, s.locals.lookup registered = some sid
  else s.locals.lookup app = some sid

/-- The message goes to applications of this server, and to no channel. -/
structure Delivers (app : String) (text : List Char) (s t : Server) : Prop where
  enqueues : Enqueues (Recipients s app) text s t
  channels : t.nodeToSession = s.nodeToSession

/-- The message goes to the high priority session of the channel to a node, and to no other one. -/
structure Relays (node : String) (high : SessionId) (text : List Char) (s t : Server) : Prop where
  enqueues : Enqueues (· = high) text s t
  channels : ∀ other, other ≠ node → t.nodeToSession.lookup other = s.nodeToSession.lookup other

section OneServer

variable {json : JsonCodec} {s t : Server} {msg : Msg} {text : List Char}

theorem enqueues_put (encoded : msg.charvec json = some text) (sid : SessionId) (s : Server) :
    ∃ queued after, QueuedMsg.ofMsg json s.store.now s.store.nextMsg msg = some queued ∧
      s.store.putOutQueue json sid msg = .done after ∧
      Enqueues (· = sid) text s (s.withStore after) := by
  have built : QueuedMsg.ofMsg json s.store.now s.store.nextMsg msg =
      some ⟨text, msg.destType, s.store.now, s.store.nextMsg⟩ := by
    rw [QueuedMsg.ofMsg, encoded]
    rfl
  obtain ⟨_, _, young⟩ := QueuedMsg.ofMsg_eq built
  refine ⟨_, _, built, by simp only [Sessions.putOutQueue, Session.putOutQueue, built]; rfl, ?_, ?_⟩
  · rintro _ rfl
    refine ⟨⟨text, msg.destType, s.store.now, s.store.nextMsg⟩, rfl, ?_⟩
    simp only [Server.withStore, Sessions.set_session, Function.update_self, enqueue_young young]
    split
    next empty => simp [empty]
    next => rfl
  · intro other different
    simp [Server.withStore, different]

/-- The loop of `handleLocalBroadcastMsg`, over sessions of different applications. -/
theorem enqueues_forEach (encoded : msg.charvec json = some text) {entries : List ((_ : String) × SessionId)}
    (distinct : (entries.map (·.2)).Nodup) (s : Server) :
    ∃ t, Outcome.forEach (fun entry server => Server.putOutQueue json entry.2 msg server) entries s =
        .done t ∧ Enqueues (· ∈ entries.map (·.2)) text s t ∧ t.nodeToSession = s.nodeToSession := by
  induction entries generalizing s with
  | nil => exact ⟨s, rfl, ⟨nofun, fun _ _ => rfl⟩, rfl⟩
  | cons entry entries inductionHypothesis =>
    rw [List.map_cons, List.nodup_cons] at distinct
    obtain ⟨_, after, _, put, first⟩ := enqueues_put encoded entry.2 s
    obtain ⟨t, rest, later, channels⟩ := inductionHypothesis distinct.2 (s.withStore after)
    refine ⟨t, ?_, ⟨?_, ?_⟩, channels⟩
    · simp only [Outcome.forEach, Server.putOutQueue, put, Outcome.map_done, Outcome.andThen_done]
      exact rest
    · intro sid member
      rw [List.map_cons, List.mem_cons] at member
      by_cases same : sid = entry.2
      · have untouched := later.others sid (same ▸ distinct.1)
        rw [untouched]
        exact first.once sid same
      · obtain ⟨queued, isText, queue⟩ := later.once sid (member.resolve_left same)
        exact ⟨queued, isText, by rw [queue, first.others sid same]⟩
    · intro sid absent
      rw [List.map_cons, List.mem_cons, not_or] at absent
      rw [later.others sid absent.2, first.others sid absent.1]

/-- The sessions of `m_locals` belong to different applications. -/
theorem mem_locals {nodeName : String} (routes : RoutesApart nodeName s) :
    (s.locals.entries.map (·.2)).Nodup ∧
      ∀ sid, sid ∈ s.locals.entries.map (·.2) ↔ ∃ app, s.locals.lookup app = some sid := by
  constructor
  · apply List.Nodup.map_on _ s.locals.nodupKeys.nodup
    rintro ⟨first, sid⟩ registered ⟨second, _⟩ other ⟨rfl⟩
    have firstPeer := (routes.sessions first sid (AList.mem_lookup_iff.mpr registered)).2
    have secondPeer := (routes.sessions second sid (AList.mem_lookup_iff.mpr other)).2
    rw [Option.some.inj (firstPeer.symm.trans secondPeer)]
  · intro sid
    rw [List.mem_map]
    constructor
    · rintro ⟨⟨app, _⟩, registered, rfl⟩
      exact ⟨app, AList.mem_lookup_iff.mpr registered⟩
    · rintro ⟨app, registered⟩
      exact ⟨⟨app, sid⟩, AList.mem_lookup_iff.mp registered, rfl⟩

theorem delivers_handleAny {nodeName : String} (routes : RoutesApart nodeName s)
    (encoded : msg.charvec json = some text)
    (kind : msg.destType = if msg.dest.app = "*" then .localbroadcast else .local) :
    ∃ t, Server.handleAny json msg s = .done (msg, t) ∧ Delivers msg.dest.app text s t := by
  by_cases all : msg.dest.app = "*"
  · rw [if_pos all] at kind
    obtain ⟨distinct, members⟩ := mem_locals routes
    obtain ⟨t, put, enqueues, channels⟩ := enqueues_forEach encoded distinct s
    refine ⟨t, ?_, ⟨?_, channels⟩⟩
    · simp only [Server.handleAny, kind, Server.handleLocalBroadcastMsg, put, Outcome.map_done]
    · have same : Recipients s msg.dest.app = (· ∈ s.locals.entries.map (·.2)) := by
        funext sid
        rw [Recipients, if_pos all]
        exact propext (members sid).symm
      rwa [same]
  · rw [if_neg all] at kind
    have same : Recipients s msg.dest.app = fun sid => s.locals.lookup msg.dest.app = some sid := by
      funext sid
      rw [Recipients, if_neg all]
    cases registered : s.locals.lookup msg.dest.app with
    | none =>
      refine ⟨s, ?_, ⟨?_, rfl⟩⟩
      · simp only [Server.handleAny, kind, Server.handleLocalMsg, registered, Outcome.map_done]
      · rw [same]
        exact ⟨fun sid recipient => by simp [registered] at recipient, fun _ _ => rfl⟩
    | some sid =>
      obtain ⟨_, after, _, put, enqueues⟩ := enqueues_put encoded sid s
      refine ⟨s.withStore after, ?_, ⟨?_, rfl⟩⟩
      · simp only [Server.handleAny, kind, Server.handleLocalMsg, registered, Server.putOutQueue, put,
          Outcome.map_done]
      · have only : (fun other => s.locals.lookup msg.dest.app = some other) = (· = sid) := by
          funext other
          rw [registered, Option.some.injEq]
          exact propext eq_comm
        rwa [same, only]

theorem relays_handleAny {remote : Remote} {high : SessionId} (encoded : msg.charvec json = some text)
    (kind : msg.destType = .remote) (registered : s.nodeToSession.lookup msg.dest.node = some remote)
    (connected : remote.connected = true) (isHigh : remote.sessionH = some high) :
    ∃ t, Server.handleAny json msg s = .done (msg, t) ∧ Relays msg.dest.node high text s t := by
  obtain ⟨queued, after, built, put, enqueues⟩ := enqueues_put encoded high s
  obtain ⟨low, isLow⟩ : ∃ low, remote.sessionL = some low := by
    simpa [Remote.connected, isHigh, Option.isSome_iff_exists] using connected
  obtain ⟨changed, sent⟩ : ∃ changed, Server.sendTo json msg.dest.node msg s =
      .done (s.setRemote msg.dest.node (changed, after)) := by
    simp only [Server.sendTo, Server.onRemote, registered, Option.getD_some, Remote.send, built, isHigh,
      isLow, put, Outcome.map_done]
    exact ⟨_, rfl⟩
  refine ⟨s.setRemote msg.dest.node (changed, after), ?_, ⟨enqueues.once, enqueues.others⟩, ?_⟩
  · simp only [Server.handleAny, kind, Server.handleRemoteMsg, Server.route, sent, Outcome.map_done]
  · intro other different
    rw [Server.lookup_setRemote, if_neg different]

/-- A message that only `handleAny` is interested in. -/
theorem received_of_handleAny {nodeName : String} {sid : SessionId} {header : PTree} {body : Body}
    {cname : String} (created : sid < s.nextSession)
    (known : (s.store.session sid).authenticated = true)
    (reading : (s.store.session sid).reading = .pending)
    (named : (header.find "cname").map PTree.data = some cname) (ordinary : cname ≠ "priority")
    {left : Msg}
    (handled : Server.handleAny json (.incoming ⟨nodeName, "userver"⟩ header body (some sid)) s =
      .done (left, t)) :
    s.received json ⟨nodeName, "userver"⟩ sid header body = some t := by
  have cname : (Msg.incoming ⟨nodeName, "userver"⟩ header body (some sid)).cname = some cname := by
    simpa [Msg.cname] using named
  have dispatched : s.dispatchMsg json ⟨nodeName, "userver"⟩ sid header body = .done t := by
    simp only [Server.dispatchMsg, known, if_true]
    rw [Server.dispatchTask_of_other cname (.inr ordinary), handled]
    rfl
  simp only [Server.received, created, reading, dispatched, and_self, if_true]

end OneServer

/-! ## The text of a message -/

/-- The text is read as one message, with this header and with this body on a line of its own. -/
structure Encodes (json : JsonCodec) (header : PTree) (body : Body) (text line : List Char) : Prop where
  frame : parse json text = ([(header, .raw line)], some none)
  same : body = .raw line ∨ ∃ tree, body = .tree tree ∧ json.readJson line = some tree

section Texts

variable {json : JsonCodec} {header : PTree} {body : Body} {text line : List Char}

theorem parse_twoLines {headerLine : List Char} (read : json.readJson headerLine = some header)
    (noBodyChild : header.find "body" = none) (oneLine : '\n' ∉ headerLine) (bodyLine : '\n' ∉ line) :
    parse json (headerLine ++ '\n' :: (line ++ ['\n'])) = ([(header, .raw line)], some none) := by
  have lines : splitLines [] (headerLine ++ '\n' :: (line ++ ['\n'])) = ([headerLine, line], []) := by
    rw [splitLines_line oneLine, splitLines_line bodyLine]
    rfl
  simp only [parse, lines, scan, read, noBodyChild]

/-- The message and the one that is read from its text have the same text. -/
theorem charvec_encodes (lawful : json.Lawful) (noBodyChild : header.find "body" = none)
    (oneLine : ∀ bytes, body = .raw bytes → '\n' ∉ bytes)
    (writable : header.Writable ∧ ∀ tree, body = .tree tree → tree.Writable) :
    ∃ text line, Encodes json header body text line ∧ '\n' ∉ line ∧
      ∀ msg : Msg, msg.header = header → msg.body = body ∨ msg.body = .raw line →
        msg.charvec json = some text := by
  obtain ⟨headerLine, written, headerIsLine, read⟩ := lawful.inverts header writable.1
  -- a raw body is written as it is
  have rawText : ∀ {msg : Msg} {line}, msg.header = header → msg.body = .raw line →
      msg.charvec json = some (headerLine ++ '\n' :: (line ++ ['\n'])) := by
    intro msg line isHeader isBody
    simp [Msg.charvec, Msg.str, isBody, isHeader, written]
  cases body with
  | raw bytes =>
    have bytesLine := oneLine bytes rfl
    refine ⟨_, bytes, ⟨parse_twoLines read noBodyChild headerIsLine bytesLine, .inl rfl⟩, bytesLine, ?_⟩
    exact fun msg isHeader isBody => rawText isHeader (isBody.elim id id)
  | tree tree =>
    obtain ⟨line, bodyWritten, bodyLine, bodyRead⟩ := lawful.inverts tree (writable.2 tree rfl)
    refine ⟨_, line, ⟨parse_twoLines read noBodyChild headerIsLine bodyLine, .inr ⟨tree, rfl, bodyRead⟩⟩,
      bodyLine, ?_⟩
    rintro msg isHeader (isBody | isBody)
    · simp [Msg.charvec, Msg.str, isBody, isHeader, written, bodyWritten]
    · exact rawText isHeader isBody

/-- What an input processor hands over. -/
theorem encodable_parsed {bytes : List Char} (handed : (header, body) ∈ (parse json bytes).1) :
    header.find "body" = none ∧ ∀ bytes, body = .raw bytes → '\n' ∉ bytes :=
  @scan_encodable json.readJson none _ (@newline_notMem_splitLines [] bytes List.not_mem_nil) (by simp)
    (header, body) handed

end Texts

/-! ## Networks -/

/-- Servers, and the other ends of the connections between them. -/
structure Network (ι : Type*) where
  server : ι → Server
  far : ι → SessionId → Option (ι × SessionId)

section Networks

variable {ι : Type*} (json : JsonCodec) (name : ι → String) (pid : ι → Nat)

/-- The states that a server gets into from a state. -/
def Reaches (i : ι) (s t : Server) : Prop :=
  ∃ events, exec (Server.step json ⟨name i, "userver"⟩ (pid i)) s events = some t

/-- Every server runs this code.  Its channel to every other node is connected, and the high priority
session of the channel leads to a session of that node which is authenticated there. -/
structure Connected (net : Network ι) : Prop where
  honest : ∀ i, ∃ now remotes, Reaches json name pid i (.initial ⟨name i, "userver"⟩ now remotes) (net.server i)
  channels : ∀ i j, i ≠ j → ∃ remote high peer,
    (net.server i).nodeToSession.lookup (name j) = some remote ∧ remote.connected = true ∧
      remote.sessionH = some high ∧ net.far i high = some (j, peer) ∧
      ((net.server j).store.session peer).peerNode = some (name i)

/-- The session is that of an application of this node, and its read handler is going to run. -/
structure IsApplication (i : ι) (app : String) (sid : SessionId) (s : Server) : Prop where
  node : (s.store.session sid).peerNode = some (name i)
  app : (s.store.session sid).peerApp = some app
  reading : (s.store.session sid).reading = .pending

/-- A message that server `n` receives from the session `sid` gets to the application `app` of the
node of `m`, at once or through the session at the other end of the channel to `m`, whenever that is
read from. -/
def Arrives (net : Network ι) (n m : ι) (sid : SessionId) (header : PTree) (body : Body) (app : String)
    (text line : List Char) : Prop :=
  ∃ t, (net.server n).received json ⟨name n, "userver"⟩ sid header body = some t ∧
    (n = m → Delivers app text (net.server n) t) ∧
    (n ≠ m → ∃ remote high peer, (net.server n).nodeToSession.lookup (name m) = some remote ∧
      remote.sessionH = some high ∧ net.far n high = some (m, peer) ∧
      Relays (name m) high text (net.server n) t ∧
      ∀ later, Reaches json name pid m (net.server m) later →
        (later.store.session peer).reading = .pending →
        ∃ t, later.received json ⟨name m, "userver"⟩ peer header (.raw line) = some t ∧
          Delivers app text later t)

variable {json name pid} {net : Network ι} {n m : ι} {sid : SessionId} {header : PTree} {body : Body}
  {app : String}

theorem reaches_keeps (lawful : json.Lawful) {s t : Server} (reaches : Reaches json name pid n s t)
    (apart : Apart (name n) s) : Apart (name n) t ∧ s.Evolves t := by
  obtain ⟨events, executed⟩ := reaches
  induction events generalizing s with
  | nil =>
    cases executed
    exact ⟨apart, .refl _⟩
  | cons e events inductionHypothesis =>
    obtain ⟨u, first, rest⟩ := exec_cons.mp executed
    obtain ⟨after, evolves⟩ := inductionHypothesis (apart_step lawful apart first) rest
    exact ⟨after, (Server.evolves_step lawful first).trans evolves⟩

theorem Connected.apart (lawful : json.Lawful) (connected : Connected json name pid net) (i : ι) :
    Apart (name i) (net.server i) := by
  obtain ⟨now, remotes, reaches⟩ := connected.honest i
  exact (reaches_keeps lawful reaches (apart_initial now remotes)).1

/-- A session that is authenticated has been created, and stays authenticated. -/
theorem known_later (lawful : json.Lawful) {s t : Server} (apart : Apart (name n) s) {node : String}
    (peer : (s.store.session sid).peerNode = some node) (reaches : Reaches json name pid n s t) :
    sid < t.nextSession ∧ (t.store.session sid).authenticated = true := by
  obtain ⟨_, evolves⟩ := reaches_keeps lawful reaches apart
  obtain ⟨msg1, known, _⟩ := Option.map_eq_some_iff.mp peer
  have created : sid < s.nextSession := by
    apply Nat.lt_of_not_le
    intro new
    simp [apart.created sid new] at known
  exact ⟨created.trans_le evolves.next,
    by simp [Session.authenticated, evolves.msg1 sid created msg1 known]⟩

/-- How a server classifies a header with a full address. -/
theorem destTypeOf_address {nodeName : String} (isApp : header.get ["to", "a"] "" = app) (named : app ≠ "")
    (proper : header.get ["to", "n"] "" ≠ "" ∧ header.get ["to", "n"] "" ≠ "*") :
    Msg.destTypeOf nodeName header =
      if header.get ["to", "n"] "" = nodeName then (if app = "*" then .localbroadcast else .local)
      else .remote := by
  simp only [Msg.destTypeOf, isApp, named, proper.1, proper.2, false_and, if_false]

/-- A message that is received on a session of the server whose node it names. -/
theorem delivers_received {nodeName : String} {s : Server} {text : List Char}
    (apart : Apart nodeName s) (created : sid < s.nextSession)
    (known : (s.store.session sid).authenticated = true)
    (reading : (s.store.session sid).reading = .pending)
    (isApp : header.get ["to", "a"] "" = app) (named : app ≠ "")
    (isNode : header.get ["to", "n"] "" = nodeName) (proper : nodeName ≠ "" ∧ nodeName ≠ "*")
    {cname : String} (isCname : (header.find "cname").map PTree.data = some cname)
    (ordinary : cname ≠ "priority")
    (encoded : ∀ origin, (Msg.incoming ⟨nodeName, "userver"⟩ header body origin).charvec json = some text) :
    ∃ t, s.received json ⟨nodeName, "userver"⟩ sid header body = some t ∧ Delivers app text s t := by
  obtain ⟨t, handled, delivers⟩ := delivers_handleAny apart.routes (encoded (some sid)) (by
    rw [Msg.incoming_destType, Msg.incoming_dest, destTypeOf_address isApp named (isNode ▸ proper),
      if_pos isNode, isApp])
  refine ⟨t, received_of_handleAny created known reading isCname ordinary handled, ?_⟩
  rwa [Msg.incoming_dest, isApp] at delivers

theorem arrives (lawful : json.Lawful) (distinct : Function.Injective name)
    (proper : ∀ i, name i ≠ "" ∧ name i ≠ "*") (connected : Connected json name pid net)
    {sender : String} (application : IsApplication name n sender sid (net.server n))
    (isApp : header.get ["to", "a"] "" = app) (named : app ≠ "")
    (isNode : header.get ["to", "n"] "" = name m)
    {cname : String} (isCname : (header.find "cname").map PTree.data = some cname)
    (ordinary : cname ≠ "priority") {text line : List Char}
    (encoded : ∀ msg : Msg, msg.header = header → msg.body = body ∨ msg.body = .raw line →
      msg.charvec json = some text) :
    Arrives json name pid net n m sid header body app text line := by
  have here := connected.apart lawful n
  have now : Reaches json name pid n (net.server n) (net.server n) := ⟨[], rfl⟩
  obtain ⟨created, known⟩ := known_later lawful here application.node now
  by_cases same : n = m
  · subst same
    have text : ∀ origin, (Msg.incoming ⟨name n, "userver"⟩ header body origin).charvec json = some text :=
      fun origin => encoded _ (by simp) (.inl (by simp))
    obtain ⟨t, returned, delivers⟩ := delivers_received here created known application.reading isApp named
      isNode (proper n) isCname ordinary text
    exact ⟨t, returned, fun _ => delivers, fun different => absurd rfl different⟩
  · obtain ⟨remote, high, peer, registered, isConnected, isHigh, far, farPeer⟩ := connected.channels n m same
    have different : name m ≠ name n := fun equal => same (distinct equal).symm
    obtain ⟨t, handled, relays⟩ := @relays_handleAny json (net.server n)
      (.incoming ⟨name n, "userver"⟩ header body (some sid)) text remote high
      (encoded _ (by simp) (.inl (by simp)))
      (by rw [Msg.incoming_destType, destTypeOf_address isApp named (isNode ▸ proper m), isNode,
        if_neg different])
      (by rw [Msg.incoming_dest, isNode]; exact registered) isConnected isHigh
    rw [Msg.incoming_dest, isNode] at relays
    refine ⟨t, received_of_handleAny created known application.reading isCname ordinary handled,
      fun equal => absurd equal same, fun _ => ⟨remote, high, peer, registered, isHigh, far, relays, ?_⟩⟩
    intro later reaches reading
    have there := connected.apart lawful m
    obtain ⟨created, known⟩ := known_later lawful there farPeer reaches
    have text : ∀ origin,
        (Msg.incoming ⟨name m, "userver"⟩ header (.raw line) origin).charvec json = some text :=
      fun origin => encoded _ (by simp) (.inr (by simp))
    exact delivers_received (reaches_keeps lawful reaches there).1 created known reading isApp named isNode
      (proper m) isCname ordinary text

/-! ## The reply -/

/-- The message that an application makes of the header and the line, also after some handler has asked
for its parsed body, where that is a tree that can be written. -/
inductive Taken (json : JsonCodec) (config : UConfig) (header : PTree) (line : List Char) : Msg → Prop
  | handed (origin : Option SessionId) : Taken json config header line (.incoming config header (.raw line) origin)
  | parsed (origin : Option SessionId) {tree : PTree} (read : json.readJson line = some tree)
      (writable : tree.Writable) :
      Taken json config header line ((Msg.incoming config header (.raw line) origin).pbody json).2

theorem Taken.eq {config : UConfig} {line : List Char} {msg : Msg}
    (taken : Taken json config header line msg) : msg.header = header ∧
      msg.from = ⟨header.get ["from", "a"] "", header.get ["from", "n"] ""⟩ ∧
      (msg.body = .raw line ∨ ∃ tree, msg.body = .tree tree ∧ tree.Writable) := by
  cases taken with
  | handed origin => exact ⟨by simp, by simp, .inl (by simp)⟩
  | @parsed origin tree read writable =>
    have kept : ((Msg.incoming config header (.raw line) origin).pbody json).2 =
        { Msg.incoming config header (.raw line) origin with body := .tree tree } := by
      simp [Msg.pbody, read]
    rw [kept]
    exact ⟨by simp, by simp, .inr ⟨tree, rfl, writable⟩⟩

theorem forward_eq (config : UConfig) {dest : Addr} (full : dest.app ≠ "" ∧ dest.node ≠ "")
    (elsewhere : dest.node ≠ "localhost") (msg : Msg) :
    (Msg.forward config dest msg).header =
        (((msg.header.put ["from", "n"] config.nodeName).put ["from", "a"] config.appName).put
          ["to", "n"] dest.node).put ["to", "a"] dest.app ∧
      (Msg.forward config dest msg).body = msg.body := by
  simp [Msg.forward, Msg.setDest, Msg.setFromLocal, full, elsewhere]

/-- The addresses of a header with full addresses can be replaced. -/
theorem writable_readdressed (writable : header.Writable)
    (sender : header.get ["from", "a"] "" ≠ "" ∧ header.get ["from", "n"] "" ≠ "")
    (dest : header.get ["to", "a"] "" ≠ "" ∧ header.get ["to", "n"] "" ≠ "")
    (node app toNode toApp : String) :
    ((((header.put ["from", "n"] node).put ["from", "a"] app).put ["to", "n"] toNode).put
      ["to", "a"] toApp).Writable := by
  have fromNode : (header.put ["from", "n"] node).Writable := PTree.writable_put sender.2 writable node
  have fromApp : ((header.put ["from", "n"] node).put ["from", "a"] app).Writable :=
    PTree.writable_put (by simpa [PTree.get_put_sibling] using sender.1) fromNode app
  apply PTree.writable_put
  · simpa [PTree.get_put_sibling, PTree.get_put_ne] using dest.1
  · exact PTree.writable_put (by simpa [PTree.get_put_ne] using dest.2) fromApp toNode

/-- What `Msg(msg.from(), msg)` has in its header and body. -/
theorem reply_eq {config : UConfig} {line : List Char} {msg : Msg} {a node : String}
    (taken : Taken json config header line msg)
    (sender : header.get ["from", "a"] "" = a ∧ header.get ["from", "n"] "" = node)
    (full : a ≠ "" ∧ node ≠ "") (elsewhere : node ≠ "localhost") :
    (Msg.forward config msg.from msg).header =
        (((header.put ["from", "n"] config.nodeName).put ["from", "a"] config.appName).put
          ["to", "n"] node).put ["to", "a"] a ∧
      ((Msg.forward config msg.from msg).body = .raw line ∨
        ∃ tree, (Msg.forward config msg.from msg).body = .tree tree ∧ tree.Writable) := by
  obtain ⟨isHeader, isSender, isBody⟩ := taken.eq
  rw [sender.1, sender.2] at isSender
  obtain ⟨replyHeader, replyBody⟩ := @forward_eq config ⟨a, node⟩ full elsewhere msg
  rw [isSender, replyHeader, replyBody, isHeader]
  exact ⟨rfl, isBody⟩

theorem reply_arrives (lawful : json.Lawful) (distinct : Function.Injective name)
    (proper : ∀ i, name i ≠ "" ∧ name i ≠ "*" ∧ name i ≠ "localhost")
    (connected : Connected json name pid net) {x a b : String}
    (application : IsApplication name m x sid (net.server m))
    (noBodyChild : header.find "body" = none) (writable : header.Writable)
    (sender : header.get ["from", "a"] "" = a ∧ header.get ["from", "n"] "" = name n)
    (dest : header.get ["to", "a"] "" = b ∧ header.get ["to", "n"] "" = name m)
    (named : a ≠ "" ∧ b ≠ "") {cname : String}
    (isCname : (header.find "cname").map PTree.data = some cname) (ordinary : cname ≠ "priority")
    {line : List Char} (isLine : '\n' ∉ line) {msg reply : Msg}
    (taken : Taken json ⟨name m, x⟩ header line msg) (isReply : reply = .forward ⟨name m, x⟩ msg.from msg) :
    ∃ text replyLine, reply.charvec json = some text ∧ Encodes json reply.header reply.body text replyLine ∧
      Arrives json name pid net m n sid reply.header (.raw replyLine) a text replyLine := by
  have proper' : ∀ i, name i ≠ "" ∧ name i ≠ "*" := fun i => ⟨(proper i).1, (proper i).2.1⟩
  obtain ⟨replyHeader, replyBody⟩ := reply_eq taken sender ⟨named.1, (proper n).1⟩ (proper n).2.2
  rw [← isReply] at replyHeader replyBody
  have noReplyBodyChild : reply.header.find "body" = none := by
    simp [replyHeader, PTree.find_put_ne, noBodyChild]
  have replyLines : ∀ raw, reply.body = .raw raw → '\n' ∉ raw := by
    intro raw isRaw
    rcases replyBody with same | ⟨tree, same, _⟩
    · rw [same, Body.raw.injEq] at isRaw
      exact isRaw ▸ isLine
    · simp [same] at isRaw
  have replyWritable : reply.header.Writable ∧ ∀ tree, reply.body = .tree tree → tree.Writable := by
    constructor
    · rw [replyHeader]
      apply writable_readdressed writable
      · rw [sender.1, sender.2]
        exact ⟨named.1, (proper n).1⟩
      · rw [dest.1, dest.2]
        exact ⟨named.2, (proper m).1⟩
    · intro tree isTree
      rcases replyBody with same | ⟨other, same, writable⟩
      · simp [same] at isTree
      · rw [same, Body.tree.injEq] at isTree
        exact isTree ▸ writable
  obtain ⟨text, replyLine, encodes, _, encoded⟩ :=
    charvec_encodes lawful noReplyBodyChild replyLines replyWritable
  refine ⟨text, replyLine, encoded reply rfl (.inl rfl), encodes, ?_⟩
  -- the server of `m` reads the reply off the wire, so its body is a line there
  apply arrives lawful distinct proper' connected application
  · rw [replyHeader, PTree.get_put_self]
  · exact named.1
  · rw [replyHeader, PTree.get_put_sibling (by decide), PTree.get_put_self]
  · simpa [replyHeader, PTree.find_put_ne] using isCname
  · exact ordinary
  · exact fun msg isHeader isBody => encoded msg isHeader (.inr (isBody.elim id id))

/-- A message from `a` on the node of `n` to `b` on the node of `m` arrives in all networks of servers
whose channels are connected, and what arrives is what was sent.  The reply of any application of `m`
that has got it arrives in the same way, at the session of `a` alone. -/
theorem unicast_and_reply_arrive (lawful : json.Lawful) (distinct : Function.Injective name)
    (proper : ∀ i, name i ≠ "" ∧ name i ≠ "*" ∧ name i ≠ "localhost")
    (connected : Connected json name pid net) {a b : String}
    (application : IsApplication name n a sid (net.server n)) {bytes : List Char}
    (handed : (header, body) ∈ (parse json bytes).1)
    (sender : header.get ["from", "a"] "" = a ∧ header.get ["from", "n"] "" = name n)
    (dest : header.get ["to", "a"] "" = b ∧ header.get ["to", "n"] "" = name m)
    (named : a ≠ "" ∧ b ≠ "") (single : a ≠ "*") {cname : String}
    (isCname : (header.find "cname").map PTree.data = some cname) (ordinary : cname ≠ "priority")
    (writable : header.Writable ∧ ∀ tree, body = .tree tree → tree.Writable) :
    ∃ text line, Encodes json header body text line ∧
      Arrives json name pid net n m sid header body b text line ∧
      (∀ (later : Network ι) (x : String) (xid : SessionId) (msg : Msg),
        Connected json name pid later → IsApplication name m x xid (later.server m) →
        Taken json ⟨name m, x⟩ header line msg →
        let reply := Msg.forward ⟨name m, x⟩ msg.from msg
        ∃ replyText replyLine, reply.charvec json = some replyText ∧
          Encodes json reply.header reply.body replyText replyLine ∧
          Arrives json name pid later m n xid reply.header (.raw replyLine) a replyText replyLine) ∧
      ∀ s sid, Recipients s a sid ↔ s.locals.lookup a = some sid := by
  have proper' : ∀ i, name i ≠ "" ∧ name i ≠ "*" := fun i => ⟨(proper i).1, (proper i).2.1⟩
  obtain ⟨noBodyChild, oneLine⟩ := encodable_parsed handed
  obtain ⟨text, line, encodes, isLine, encoded⟩ := charvec_encodes lawful noBodyChild oneLine writable
  refine ⟨text, line, encodes, ?_, ?_, ?_⟩
  · exact arrives lawful distinct proper' connected application dest.1 named.2 dest.2 isCname ordinary encoded
  · intro later x xid msg connected application taken reply
    exact reply_arrives lawful distinct proper connected application noBodyChild writable.1 sender dest named
      isCname ordinary isLine taken rfl
  · intro s sid
    rw [Recipients, if_neg single]

end Networks

/-- A server is connected twice with the server of `beta`, which gives the connections their roles, and
once with an application. -/
def alphaJoins : List ServerEvent :=
  [.accept "10.0.0.2", .accept "10.0.0.2", .accept "127.0.0.1",
    .received 0 (serviceHeader ⟨"beta", "userver"⟩ "auth") (.tree .empty),
    .received 0 (serviceHeader ⟨"beta", "userver"⟩ "priority") (.tree Priority.high.toBody),
    .received 1 (serviceHeader ⟨"beta", "userver"⟩ "auth") (.tree .empty),
    .received 1 (serviceHeader ⟨"beta", "userver"⟩ "priority") (.tree Priority.low.toBody),
    .received 2 (serviceHeader ⟨"alpha", "usender"⟩ "auth") (.tree .empty)]

/-- The other end of these connections. -/
def betaJoins : List ServerEvent :=
  [.accept "10.0.0.1", .accept "10.0.0.1",
    .received 0 (serviceHeader ⟨"alpha", "userver"⟩ "auth") (.tree .empty),
    .received 1 (serviceHeader ⟨"alpha", "userver"⟩ "auth") (.tree .empty)]

/-- A ping from the application of `alpha` arrives at `beta`. -/
theorem unicast_and_reply_arrive_ping :
    let name : Bool → String := fun i => if i then "beta" else "alpha"
    let header := (Msg.outgoing ⟨"alpha", "usender"⟩ ⟨"uecho", "beta"⟩ "ping" .empty).header
    ∃ alpha beta,
      exec (Server.step Json.compactJson ⟨"alpha", "userver"⟩ 7) (.initial ⟨"alpha", "userver"⟩ 0 [])
        alphaJoins = some alpha ∧
      exec (Server.step Json.compactJson ⟨"beta", "userver"⟩ 7) (.initial ⟨"beta", "userver"⟩ 0 [])
        betaJoins = some beta ∧
      ∃ text, Arrives Json.compactJson name (fun _ => 7)
        ⟨fun i => if i then beta else alpha, fun i sid => some (!i, sid)⟩ false true 2 header
        (.raw ['7']) "uecho" text ['7'] := by
  intro name header
  have alphaReached : (exec (Server.step Json.compactJson ⟨"alpha", "userver"⟩ 7)
      (.initial ⟨"alpha", "userver"⟩ 0 []) alphaJoins).map (fun s =>
        decide ((s.nodeToSession.lookup "beta").map (fun remote => (remote.connected, remote.sessionH)) =
            some (true, some 0) ∧ (s.store.session 0).peerNode = some "beta" ∧
          (s.store.session 2).peerNode = some "alpha" ∧ (s.store.session 2).peerApp = some "usender" ∧
          (s.store.session 2).reading = .pending)) = some true := by
    decide +kernel
  have betaReached : (exec (Server.step Json.compactJson ⟨"beta", "userver"⟩ 7)
      (.initial ⟨"beta", "userver"⟩ 0 []) betaJoins).map (fun s =>
        decide ((s.nodeToSession.lookup "alpha").map (fun remote => (remote.connected, remote.sessionH)) =
            some (true, some 0) ∧ (s.store.session 0).peerNode = some "alpha")) = some true := by
    decide +kernel
  obtain ⟨alpha, alphaRun, decided⟩ := Option.map_eq_some_iff.mp alphaReached
  obtain ⟨alphaChannel, alphaPeer, appNode, app, reading⟩ := of_decide_eq_true decided
  obtain ⟨beta, betaRun, decided⟩ := Option.map_eq_some_iff.mp betaReached
  obtain ⟨betaChannel, betaPeer⟩ := of_decide_eq_true decided
  refine ⟨alpha, beta, alphaRun, betaRun, ?_⟩
  obtain ⟨alphaRemote, alphaRegistered, alphaSlots⟩ := Option.map_eq_some_iff.mp alphaChannel
  obtain ⟨betaRemote, betaRegistered, betaSlots⟩ := Option.map_eq_some_iff.mp betaChannel
  rw [Prod.mk.injEq] at alphaSlots betaSlots
  have connected : Connected Json.compactJson name (fun _ => 7)
      ⟨fun i => if i then beta else alpha, fun i sid => some (!i, sid)⟩ := by
    constructor
    · rintro (_ | _)
      · exact ⟨0, [], _, alphaRun⟩
      · exact ⟨0, [], _, betaRun⟩
    · rintro (_ | _) (_ | _) different
      · exact absurd rfl different
      · exact ⟨alphaRemote, 0, 0, alphaRegistered, alphaSlots.1, alphaSlots.2, rfl, betaPeer⟩
      · exact ⟨betaRemote, 0, 0, betaRegistered, betaSlots.1, betaSlots.2, rfl, alphaPeer⟩
      · exact absurd rfl different
  have lawful := Json.compactJson_lawful
  obtain ⟨wire, line, encodes, _, _⟩ := @charvec_encodes Json.compactJson header (.raw ['7']) lawful rfl
    (by rintro _ ⟨⟩; decide) ⟨by decide, by simp⟩
  have same : ['7'] = line := by simpa using encodes.same
  have handed : (header, Body.raw ['7']) ∈ (parse Json.compactJson wire).1 := by
    rw [encodes.frame, same]
    exact List.mem_singleton_self _
  have distinct : Function.Injective name := by
    rintro (_ | _) (_ | _) equal <;> first | rfl | exact absurd equal (by decide)
  obtain ⟨text, other, encodes, arrives, _⟩ := @unicast_and_reply_arrive Bool Json.compactJson name (fun _ => 7)
    ⟨fun i => if i then beta else alpha, fun i sid => some (!i, sid)⟩ false true 2 header (.raw ['7'])
    lawful distinct (by decide) connected "usender" "uecho" ⟨appNode, app, reading⟩ wire handed
    ⟨rfl, rfl⟩ ⟨rfl, rfl⟩ (by decide) (by decide) "ping" rfl (by decide) ⟨by decide, by simp⟩
  have isLine : ['7'] = other := by simpa using encodes.same
  exact ⟨text, isLine ▸ arrives⟩

end Uzel.Verified.Delivery
