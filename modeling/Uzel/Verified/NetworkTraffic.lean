import Uzel.Network
import Uzel.Verified.OutputFraming
import Uzel.Verified.Provenance

/-! # Traffic in a network of servers

Nobody but the programs around a network brings messages into it, and what stays on a node by its
address stays on its node.  Both hold for any number of servers with any names, for whatever the programs
write and wherever the streams are cut; the two ends of a connection know each other as what they are,
or not at all.
-/

namespace Uzel.Verified.NetworkTraffic

open Foundation Protocol OutputRules WireRoundTrip RelayTransparency OutputFraming FirstTexts SelfRouting

/-! ## Messages that are passed on -/

/-- The text is read as the message, with the header that it had; a body that is not JSON may have been
replaced, if it is that of a priority message. -/
def Same (json : JsonCodec) (frame : PTree × Body) (text : List Char) : Prop :=
  ∃ body, Single json text (frame.1, body) ∧ (body.parsed json = frame.2.parsed json ∨
    (frame.2.parsed json = none ∧ (frame.1.find "cname").map PTree.data = some "priority"))

/-- The message leaves the node. -/
def Outbound (nodeName : String) (header : PTree) : Prop :=
  Msg.destTypeOf nodeName header = .remote ∨ Msg.destTypeOf nodeName header = .broadcast

section Messages

variable {json : JsonCodec} {config : UConfig} {frame : PTree × Body} {text : List Char}

theorem dispatched_destType {msg left : Msg} (dispatched : Dispatched json msg left) :
    left.header = msg.header ∧ left.destType = msg.destType ∧ left.dest = msg.dest := by
  rcases dispatched with rfl | ⟨_, _, rfl⟩
  · exact ⟨rfl, rfl, rfl⟩
  · unfold Msg.pbody
    split
    · exact ⟨rfl, rfl, rfl⟩
    · split <;> exact ⟨rfl, rfl, rfl⟩

/-- A server passes a message on as the message that it is. -/
theorem same_dispatched (lawful : json.Lawful) {origin : Option SessionId} {left : Msg}
    (encodable : Encodable (.incoming config frame.1 frame.2 origin))
    (dispatched : Dispatched json (.incoming config frame.1 frame.2 origin) left)
    (encoded : left.charvec json = some text) : Same json frame text := by
  obtain ⟨bytes, body, encoded', read, parsed⟩ := relays_of_writable lawful
    (encodable_dispatched encodable dispatched) rfl rfl (charvec_writable lawful encoded)
  obtain rfl : text = bytes := Option.some.inj (encoded.symm.trans encoded')
  have header : left.header = frame.1 := (dispatched_destType dispatched).1.trans (Msg.incoming_header ..)
  rw [header] at read
  refine ⟨body, read, ?_⟩
  -- only the handler of the priority messages asks for the parsed body
  rcases dispatched with rfl | ⟨_, named, rfl⟩
  · exact .inl (parsed.trans (by rw [Msg.incoming_body]))
  · cases isTree : frame.2.parsed json with
    | none =>
      rw [Msg.cname, Msg.incoming_header] at named
      exact .inr ⟨rfl, named⟩
    | some tree =>
      -- the parser has been successful, so the tree is the body
      have known : ((Msg.incoming config frame.1 frame.2 origin).pbody json).1 = some tree := by
        rw [Msg.pbody_fst, Msg.incoming_body, isTree]
      rw [parsed_pbody known] at parsed
      exact .inl parsed

theorem Same.trans {next : PTree × Body} {later : List Char} (same : Same json frame text)
    (read : Single json text next) (again : Same json next later) : Same json frame later := by
  obtain ⟨body, single, isBody⟩ := same
  obtain rfl : next = (frame.1, body) := record_unique read single
  obtain ⟨body', single', isBody'⟩ := again
  refine ⟨body', single', ?_⟩
  rcases isBody' with parsed | ⟨unparsed, named⟩
  · rcases isBody with before | before
    · exact .inl (parsed.trans before)
    · exact .inr before
  · rcases isBody with before | before
    · exact .inr ⟨before.symm.trans unparsed, named⟩
    · exact .inr before

end Messages

/-! ## One server -/

/-- Among the messages that visit the node, the applications of the node may get all of them and anybody
else those that leave it. -/
def transit (json : JsonCodec) (nodeName : String) (visits : PTree × Body → Prop) : Policy where
  session peer text := Own json ⟨nodeName, "userver"⟩ text ∨ ∃ frame, visits frame ∧ Same json frame text ∧
    ∃ addr, peer = some addr ∧ (addr.node = nodeName ∨ Outbound nodeName frame.1)
  channel _ text := ∃ frame, visits frame ∧ Same json frame text ∧ Outbound nodeName frame.1

section OneServer

variable {json : JsonCodec} {nodeName : String} {pid : Nat} {visits more : PTree × Body → Prop} {s t : Server}
  {sid : SessionId}

theorem transit_fair : (transit json nodeName visits).Fair json ⟨nodeName, "userver"⟩ where
  own _ _ isOwn := .inl isOwn
  known _ _ allowed := by
    rcases allowed with isOwn | ⟨_, _, _, _, nobody, _⟩
    · exact .inl isOwn
    · cases nobody

theorem transit_suits (authenticated : ∀ node sid, s.holds node sid → (s.store.session sid).msg1 ≠ none) :
    Suits (transit json nodeName visits) s := by
  rintro node sid held text ⟨frame, visit, same, outbound⟩
  obtain ⟨msg1, known⟩ := Option.ne_none_iff_exists'.mp (authenticated node sid held)
  exact .inr ⟨frame, visit, same, msg1.from, by rw [Session.peer, known]; rfl, .inr outbound⟩

theorem utters_more (grows : ∀ frame, visits frame → more frame)
    (utters : Utters (transit json nodeName visits) s) : Utters (transit json nodeName more) s := by
  have weaker : ∀ peer text, (transit json nodeName visits).session peer text →
      (transit json nodeName more).session peer text := by
    rintro peer text (isOwn | ⟨frame, visit, rest⟩)
    · exact .inl isOwn
    · exact .inr ⟨frame, grows frame visit, rest⟩
  constructor
  · exact fun sid => ⟨fun text member => weaker _ _ ((utters.sessions sid).sent text member),
      fun msg member => weaker _ _ ((utters.sessions sid).queued msg member)⟩
  · intro node remote registered queued member
    obtain ⟨frame, visit, rest⟩ := utters.channels node remote registered queued member
    exact ⟨frame, grows frame visit, rest⟩

/-- What the header and the body say is a message for the peer only, or it visits the node. -/
def Expected (json : JsonCodec) (nodeName : String) (visits : PTree × Body → Prop) (frame : PTree × Body) :
    Prop :=
  Msg.destTypeOf nodeName frame.1 = .service ∨
    ∃ visitor, visits visitor ∧ visitor.1 = frame.1 ∧ ∀ text, Same json frame text → Same json visitor text

theorem transit_delivers (lawful : json.Lawful) (apart : Apart nodeName s) {frame : PTree × Body} {left : Msg}
    {origin : Option SessionId}
    (encodable : Encodable (.incoming ⟨nodeName, "userver"⟩ frame.1 frame.2 origin))
    (expected : Expected json nodeName visits frame)
    (dispatched : Dispatched json (.incoming ⟨nodeName, "userver"⟩ frame.1 frame.2 origin) left) :
    Delivers (transit json nodeName visits) json s left := by
  have kind : left.destType = Msg.destTypeOf nodeName frame.1 :=
    (dispatched_destType dispatched).2.1.trans (Msg.incoming_destType ..)
  -- a message that is routed is not one for the peer only
  have visitor : left.destType ≠ .service → ∀ text, left.charvec json = some text →
      ∃ visitor, visits visitor ∧ visitor.1 = frame.1 ∧ Same json visitor text := by
    intro routed text encoded
    rcases expected with service | ⟨visitor, visit, header, same⟩
    · exact absurd (kind.trans service) routed
    · exact ⟨visitor, visit, header, same text (same_dispatched lawful encodable dispatched encoded)⟩
  constructor
  · intro app sid registered routed text encoded
    have notService : left.destType ≠ .service := by
      rcases routed with ⟨routed, _⟩ | routed <;> simp [routed]
    obtain ⟨visitor, visit, _, same⟩ := visitor notService text encoded
    exact .inr ⟨visitor, visit, same, _, Provenance.peer_of_application apart registered, .inl rfl⟩
  · intro node routed text encoded
    have outbound : left.destType = .remote ∨ left.destType = .broadcast := routed.imp And.left id
    have notService : left.destType ≠ .service := by
      rcases outbound with routed | routed <;> simp [routed]
    obtain ⟨visitor, visit, header, same⟩ := visitor notService text encoded
    rw [kind, ← header] at outbound
    exact ⟨visitor, visit, same, outbound⟩

/-- One message of a session. -/
theorem utters_message (lawful : json.Lawful) (apart : Apart nodeName s) (tabled : Tabled s)
    (utters : Utters (transit json nodeName visits) s) {frame : PTree × Body}
    (encodable : Encodable (.incoming ⟨nodeName, "userver"⟩ frame.1 frame.2 (some sid)))
    (expected : (s.store.session sid).authenticated = true → Expected json nodeName visits frame) :
    (s.dispatchMsg json ⟨nodeName, "userver"⟩ sid frame.1 frame.2).All
      (Utters (transit json nodeName visits)) := by
  apply utters_dispatchMsg lawful transit_fair utters rfl
  -- an application takes over the queue of the one before it, which had the same node
  · rintro _ _ isLocal old _ text (isOwn | ⟨visitor, visit, same, _⟩)
    · exact .inl isOwn
    · have home : (Msg.incoming ⟨nodeName, "userver"⟩ frame.1 frame.2 (some sid)).from.node = nodeName := by
        simpa [Msg.fromLocal, UConfig.isLocalNode] using isLocal
      exact .inr ⟨visitor, visit, same, _, rfl, .inl home⟩
  · rintro _ _ _ text ⟨visitor, visit, same, outbound⟩
    exact .inr ⟨visitor, visit, same, _, rfl, .inr outbound⟩
  · exact fun _ => transit_suits tabled.channels
  -- a priority message gives a place to nobody but its own session, which is authenticated
  · intro known _ _ remote left changed after registered final
    have persist := Remote.carries_handlePriorityMsg Session.carried_persists final
    apply transit_suits
    intro node other held
    rw [Server.setRemote_store, (persist other).msg1]
    rw [Server.holds_setRemote] at held
    split at held
    · rcases Remote.holds_handlePriorityMsg final held with before | ⟨origin, _⟩
      · exact tabled.channels _ other ⟨remote, registered, before⟩
      · rw [Msg.incoming_origin, Option.some.injEq] at origin
        exact origin ▸ Option.isSome_iff_ne_none.mp known
    · exact tabled.channels node other held
  · exact fun known left dispatched => transit_delivers lawful apart encodable (expected known) dispatched

/-- What a server is on its own, whatever is written to it. -/
structure Standing (json : JsonCodec) (nodeName : String) (pid : Nat) (s : Server) : Prop where
  framed : Framed json s
  apart : Apart nodeName s
  begins : ∃ refused, Begins json ⟨nodeName, "userver"⟩ pid refused s

theorem standing_step (lawful : json.Lawful) (standing : Standing json nodeName pid s) {e : SocketEvent}
    (next : s.socketStep json ⟨nodeName, "userver"⟩ pid e = some t) : Standing json nodeName pid t where
  framed := framed_step lawful standing.framed next
  apart := Server.socketStep_keeps lawful (fun apart next => apart_step lawful apart next) standing.apart next
  begins := by
    apply Server.socketStep_keeps lawful _ standing.begins next
    rintro u v e ⟨refused, begins⟩ next
    exact ⟨_, begins_step lawful begins next⟩

theorem standing_initial (now : Nat) (remotes : List String) :
    Standing json nodeName pid (.initial ⟨nodeName, "userver"⟩ now remotes) :=
  ⟨framed_initial now remotes, apart_initial now remotes, _, begins_initial now remotes⟩

theorem Standing.tabled (standing : Standing json nodeName pid s) : Tabled s := by
  obtain ⟨refused, begins⟩ := standing.begins
  exact begins.tabled

theorem read_created {config : UConfig} {block : List Char}
    (returned : s.read json config sid block = some t) :
    sid < s.nextSession := by
  simp only [Server.read] at returned
  split at returned
  next enabled => exact enabled.1
  next => cases returned

theorem authenticated_message (lawful : json.Lawful) {config : UConfig} (blank : s.Blank)
    (created : sid < s.nextSession) (header : PTree) (body : Body) :
    (s.dispatchMsg json config sid header body).All fun t =>
      (s.store.session sid).authenticated = true → (t.store.session sid).authenticated = true := by
  apply (Server.dispatchMsg_msg1 lawful blank created header body).mono
  intro t keeps known
  have same := keeps.2 sid
  simp only [Server.msg1After, Server.verdict, known, if_true] at same
  rw [Session.authenticated, same]
  exact known

/-- A block of input: the messages that it brings are expected once the session is authenticated. -/
theorem utters_read (lawful : json.Lawful) (standing : Standing json nodeName pid s)
    {visits : Prop → PTree × Body → Prop}
    (mono : ∀ {p q : Prop}, (p → q) → ∀ frame, visits p frame → visits q frame) {block : List Char}
    (utters : Utters (transit json nodeName (visits ((s.store.session sid).authenticated = true))) s)
    (expected : ∀ frame ∈ (Server.framesOf json block (s.store.session sid).processor).1,
      Expected json nodeName (visits True) frame)
    (returned : s.read json ⟨nodeName, "userver"⟩ sid block = some t) :
    Utters (transit json nodeName (visits ((t.store.session sid).authenticated = true))) t := by
  have created := read_created returned
  have wellRead := standing.framed.processors sid created
  -- a message may authenticate the session, and from then on more is allowed
  obtain ⟨u, ⟨utters, _⟩, ends⟩ := @Server.read_keeps json ⟨nodeName, "userver"⟩
    (fun u => Utters (transit json nodeName (visits ((u.store.session sid).authenticated = true))) u ∧
      Apart nodeName u ∧ Tabled u ∧ u.nextSession = s.nextSession) s t sid block
    ⟨utters, standing.apart, standing.tabled, rfl⟩
    (by
      rintro frame member u ⟨utters, apart, tabled, next⟩
      have created := next ▸ created
      have known := wellRead.frames block frame member
      have encodable : Encodable (.incoming ⟨nodeName, "userver"⟩ frame.1 frame.2 (some sid)) :=
        ⟨by simpa using known.1, by simpa using known.2⟩
      have message := utters_message lawful apart tabled utters encodable fun authenticated => by
        rw [eq_true authenticated]
        exact expected frame member
      have count := (@dispatchMsg_sent json ⟨nodeName, "userver"⟩ lawful sid frame.1 frame.2 u).mono
        fun _ sent => sent.1
      apply ((message.and (authenticated_message lawful tabled.blank created frame.1 frame.2)).and
        ((apart_dispatchMsg lawful apart created frame.1 frame.2).and
          ((tabled_dispatchMsg lawful tabled created frame.1 frame.2).and count))).mono
      rintro v ⟨⟨utters, stays⟩, apart, tabled, count⟩
      exact ⟨utters_more (mono stays) utters, apart, tabled, count.trans next⟩) returned
  rcases ends with rfl | ⟨header, _, rfl⟩
  · have same : ((u.readFailed sid).store.session sid).msg1 = (u.store.session sid).msg1 := by
      rw [Server.readFailed, stop_same (·.msg1) (fun _ => rfl)]
      exact @Sessions.set_congr _ (·.msg1) u.store sid { u.store.session sid with reading := .idle } rfl sid
    rw [Session.authenticated, same]
    exact utters_readFailed utters sid
  · rw [RoleAssignment.readAgain_self]
    exact utters.of_store (speaks_set utters.sessions
      ((utters.sessions sid).of_same rfl rfl (List.Subset.refl _)))

/-! ### The introduction -/

/-- The first text of a session is a notice. -/
theorem first_notice (standing : Standing json nodeName pid s) (created : sid < s.nextSession) :
    (s.store.session sid).sent = [] ∨ ∃ text rest, (s.store.session sid).sent = text :: rest ∧
      Own json ⟨nodeName, "userver"⟩ text := by
  obtain ⟨refused, begins⟩ := standing.begins
  cases begins.opening sid created with
  | silent _ unopened => exact .inl unopened.sent
  | goodbye _ encoded sent => exact .inr ⟨_, [], sent, _, encoded⟩
  | started _ encoded first =>
    obtain ⟨rest, sent⟩ := List.head?_eq_some_iff.mp first
    exact .inr ⟨_, rest, sent, _, encoded⟩

/-- A server accepts the notices of the servers of other nodes as an introduction. -/
theorem notice_passes {notice : Notice} {peerName : String} {frame : PTree × Body} (named : peerName ≠ "")
    (isFrame : notice.Frame json ⟨peerName, "userver"⟩ frame) (origin : Option SessionId) :
    Session.authenticate ⟨nodeName, "userver"⟩
      (.incoming ⟨nodeName, "userver"⟩ frame.1 frame.2 origin) = true ↔ peerName ≠ nodeName := by
  obtain ⟨sender, _⟩ := @RoleAssignment.incoming_notice json nodeName peerName notice frame.1 frame.2
    isFrame origin
  rw [Session.authenticate_userver, sender]
  simp [named]

/-- A session that hears nothing but notices of its own node stays without a peer. -/
theorem stays_unknown (lawful : json.Lawful) (standing : Standing json nodeName pid s)
    (unknown : (s.store.session sid).msg1 = none) (named : nodeName ≠ "") {block : List Char}
    (notices : ∀ frame ∈ (Server.framesOf json block (s.store.session sid).processor).1,
      ∃ notice : Notice, notice.Frame json ⟨nodeName, "userver"⟩ frame)
    (returned : s.read json ⟨nodeName, "userver"⟩ sid block = some t) :
    (t.store.session sid).msg1 = none := by
  have created := read_created returned
  obtain ⟨u, ⟨unknown, _⟩, ends⟩ := @Server.read_keeps json ⟨nodeName, "userver"⟩
    (fun u => (u.store.session sid).msg1 = none ∧ u.Blank ∧ sid < u.nextSession) s t sid block
    ⟨unknown, standing.tabled.blank, created⟩
    (by
      rintro frame member u ⟨unknown, blank, created⟩
      obtain ⟨notice, isFrame⟩ := notices frame member
      have fails : Session.authenticate ⟨nodeName, "userver"⟩
          (.incoming ⟨nodeName, "userver"⟩ frame.1 frame.2 (some sid)) = false :=
        Bool.eq_false_iff.mpr fun passes => (notice_passes named isFrame (some sid)).mp passes rfl
      apply (Server.dispatchMsg_msg1 lawful blank created frame.1 frame.2).mono
      rintro v ⟨count, msg1⟩
      have same := msg1 sid
      simp only [Server.msg1After, Server.verdict, Session.authenticated, unknown, fails] at same
      refine ⟨by simpa using same, ?_, created.trans_le count⟩
      intro other new
      have different : other ≠ sid := fun same => Nat.not_le.mpr created (same ▸ count.trans new)
      rw [msg1 other]
      simpa [Server.msg1After, different] using blank other (count.trans new)) returned
  rcases ends with rfl | ⟨header, _, rfl⟩
  · rw [Server.readFailed, stop_same (·.msg1) (fun _ => rfl)]
    have same := @Sessions.set_congr _ (·.msg1) u.store sid
      { u.store.session sid with reading := .idle } rfl sid
    exact same.trans unknown
  · rw [RoleAssignment.readAgain_self]
    exact unknown

theorem goesOn_other (lawful : json.Lawful) (standing : Standing json nodeName pid s) {e : ServerEvent}
    (next : s.socketStep json ⟨nodeName, "userver"⟩ pid (.other e) = some t) :
    RefusedConnection.GoesOn (fun _ => False) s t := by
  have unread : ∀ sid, sid ∉ RefusedConnection.reader e := by
    intro sid member
    cases e with
    | received caller header body => cases next
    | readAgain caller processor => cases next
    | _ => cases member
  have goesOn := @RefusedConnection.goesOn_step json (fun _ => nodeName) (fun _ => pid) .lower s t lawful
    standing.tabled.blank e (fun sid member => absurd member (unread sid)) (Server.socketStep_other next)
  exact goesOn.mono unread

theorem goesOn_read (lawful : json.Lawful) (standing : Standing json nodeName pid s) {block : List Char}
    (returned : s.read json ⟨nodeName, "userver"⟩ sid block = some t) :
    sid < s.nextSession ∧ RefusedConnection.GoesOn (· = sid) s t := by
  have created := read_created returned
  obtain ⟨events, run⟩ := @Server.read_exec json ⟨nodeName, "userver"⟩ lawful pid sid block s t returned
  exact ⟨created, @RefusedConnection.goesOn_exec json (fun _ => nodeName) (fun _ => pid) .lower s t sid lawful
    standing.tabled.blank created events run.ofRead run.executed⟩

theorem accept_next {config : UConfig} {raddr : String}
    (accepted : s.step json config pid (.accept raddr) = some t) :
    t.nextSession = s.nextSession + 1 := by
  apply Server.returned_all (P := fun t => t.nextSession = s.nextSession + 1) _ accepted
  apply (Server.accept_carries Session.carried_persists Session.persists_reading raddr s).mono
  rintro t ⟨store, rfl, _⟩
  rfl

/-- The messages of a stream that a block completes. -/
theorem parse_block {done block : List Char} {processor : InputProcessor}
    (follows : Follows json done processor) :
    parse json (done ++ block) = ((parse json done).1 ++ (Server.framesOf json block processor).1,
      (Server.framesOf json block processor).2) := by
  have before : parse json done = ((parse json done).1, some processor.header) := Prod.ext rfl follows.header
  rw [parse_append done block before, Server.framesOf, follows.line]

/-- A session that reads on has taken in the whole block. -/
theorem follows_read {config : UConfig} {done block : List Char}
    (follows : Follows json done (s.store.session sid).processor)
    (returned : s.read json config sid block = some t) (pending : (t.store.session sid).reading = .pending) :
    Follows json (done ++ block) (t.store.session sid).processor := by
  obtain ⟨u, _, ends⟩ := Server.read_keeps (P := fun _ => True) trivial
    (fun frame _ u _ => Outcome.all_of_final fun _ _ => trivial) returned
  rcases ends with rfl | ⟨header, waiting, rfl⟩
  · have idle : ((u.readFailed sid).store.session sid).reading = .idle := by
      rw [Server.readFailed, stop_same (·.reading) (fun _ => rfl)]
      simp [Server.setReading, Server.withStore]
    rw [idle] at pending
    cases pending
  · rw [RoleAssignment.readAgain_self]
    refine ⟨?_, ?_⟩
    · rw [parse_block follows, waiting]
      rfl
    · rw [partialLine_append, follows.line]
      rfl

end OneServer

/-! ## The connections -/

/-- A session has read so much of the stream of its peer: before it knows the peer no message, unless the
peer is a server of the same node. -/
structure Hears (json : JsonCodec) (abroad : Prop) (heard : List Char) (ss : Session) : Prop where
  follows : Follows json heard ss.processor
  silent : abroad → ss.msg1 = none → (parse json heard).1 = []

/-- One end of a connection, or of none that is known. -/
structure Attached {ι : Type*} (json : JsonCodec) (name : ι → String) (net : Network ι) (at' : ι × SessionId) :
    Prop where
  created : net.source at' ≠ .unknown → at'.2 < (net.server at'.1).nextSession
  unread : net.source at' = .unknown → at'.2 < (net.server at'.1).nextSession →
    (net.session at').msg1 = none ∧ (net.session at').processor = .fresh
  streams : ∀ peer consumed, net.source at' = .stream peer consumed → consumed ≤ (net.stream peer).length ∧
    Hears json (name peer.1 ≠ name at'.1) ((net.stream peer).take consumed) (net.session at')
  met : ∀ peer, (net.source at').peer = some peer → ∀ msg, (net.session at').msg1 = some msg →
    msg.from = ⟨"userver", name peer.1⟩ ∧ name peer.1 ≠ name at'.1

structure Wired {ι : Type*} (json : JsonCodec) (name : ι → String) (net : Network ι) : Prop where
  ends : ∀ at', Attached json name net at'
  partner : ∀ at' peer, (net.source at').peer = some peer → (net.source peer).peer = some at'

section Connections

variable {ι : Type*} {json : JsonCodec} {name : ι → String} {net after : Network ι} {i : ι} {sid : SessionId}

theorem peer_of_stream {at' peer : ι × SessionId} {consumed : Nat}
    (source : net.source at' = .stream peer consumed) : (net.source at').peer = some peer := by
  rw [source]
  rfl

theorem Wired.created (wired : Wired json name net) {at' peer : ι × SessionId}
    (connected : (net.source at').peer = some peer) : peer.2 < (net.server peer.1).nextSession := by
  apply (wired.ends peer).created
  intro unknown
  have back := wired.partner at' peer connected
  rw [unknown] at back
  cases back

/-- The streams of one server have grown, and the others have rested. -/
theorem stream_grows {reads : SessionId → Prop} (others : ∀ j, j ≠ i → after.server j = net.server j)
    (goesOn : RefusedConnection.GoesOn reads (net.server i) (after.server i)) {at' : ι × SessionId}
    (created : at'.2 < (net.server at'.1).nextSession) : net.stream at' <+: after.stream at' := by
  by_cases moved : at'.1 = i
  · subst moved
    exact (goesOn.streams at'.2 created).flatten
  · rw [Network.stream, Network.stream, Network.session, Network.session, others at'.1 moved]

/-- One server has gone on, while the sessions in `reads` may have got further in their input. -/
theorem Wired.advance {reads : SessionId → Prop} (wired : Wired json name net)
    (others : ∀ j, j ≠ i → after.server j = net.server j)
    (goesOn : RefusedConnection.GoesOn reads (net.server i) (after.server i))
    (peers : ∀ at', (after.source at').peer = (net.source at').peer)
    (sources : ∀ at', ¬ (at'.1 = i ∧ reads at'.2) → after.source at' = net.source at')
    (read : ∀ sid, reads sid → Attached json name after (i, sid)) : Wired json name after := by
  constructor
  · rintro at'
    by_cases isRead : at'.1 = i ∧ reads at'.2
    · obtain ⟨rfl, isRead⟩ := isRead
      exact read at'.2 isRead
    have known := wired.ends at'
    have source := sources at' isRead
    have count : (net.server at'.1).nextSession ≤ (after.server at'.1).nextSession := by
      by_cases moved : at'.1 = i
      · rw [moved]
        exact goesOn.next
      · rw [others at'.1 moved]
    have kept : at'.2 < (net.server at'.1).nextSession → (after.session at').msg1 = (net.session at').msg1 ∧
        (after.session at').processor = (net.session at').processor := by
      intro old
      by_cases moved : at'.1 = i
      · subst moved
        exact goesOn.unread at'.2 old fun reads => isRead ⟨rfl, reads⟩
      · rw [Network.session, Network.session, others at'.1 moved]
        exact ⟨rfl, rfl⟩
    constructor
    · intro attached
      rw [source] at attached
      exact (known.created attached).trans_le count
    · intro unknown below
      rw [source] at unknown
      by_cases old : at'.2 < (net.server at'.1).nextSession
      · rw [(kept old).1, (kept old).2]
        exact known.unread unknown old
      · by_cases moved : at'.1 = i
        · subst moved
          exact goesOn.fresh at'.2 below (Nat.le_of_not_lt old)
        · rw [others at'.1 moved] at below
          exact absurd below old
    · intro peer consumed connected
      rw [source] at connected
      obtain ⟨bound, hears⟩ := known.streams peer consumed connected
      have old := known.created (by simp [connected])
      -- what has been read is still at the front of the stream
      obtain ⟨more, grown⟩ := stream_grows others goesOn (wired.created (peer_of_stream connected))
      have heard : (after.stream peer).take consumed = (net.stream peer).take consumed := by
        rw [← grown, List.take_append_of_le_length bound]
      refine ⟨bound.trans (by rw [← grown, List.length_append]; omega), ?_, ?_⟩
      · rw [heard, (kept old).2]
        exact hears.follows
      · rw [heard, (kept old).1]
        exact hears.silent
    · intro peer connected
      rw [source] at connected
      have old := known.created (by
        rintro unknown
        rw [unknown] at connected
        cases connected)
      rw [(kept old).1]
      exact known.met peer connected
  · intro at' peer connected
    rw [peers] at connected ⊢
    exact wired.partner at' peer connected

theorem Attached.congr {at' : ι × SessionId} (known : Attached json name net at')
    (server : after.server = net.server) (source : after.source at' = net.source at') :
    Attached json name after at' := by
  obtain ⟨server', source'⟩ := after
  obtain rfl : server' = net.server := server
  constructor
  · rw [source]
    exact known.created
  · rw [source]
    exact known.unread
  · rw [source]
    exact known.streams
  · rw [source]
    exact known.met

/-- A session of which nothing is known is at the beginning of the stream of its peer. -/
theorem attached_begin {at' peer : ι × SessionId} (known : Attached json name net at')
    (unknown : net.source at' = .unknown) (created : at'.2 < (net.server at'.1).nextSession)
    (server : after.server = net.server) (source : after.source at' = .stream peer 0) :
    Attached json name after at' := by
  obtain ⟨msg1, processor⟩ := known.unread unknown created
  have session : after.session at' = net.session at' := by rw [Network.session, server, Network.session]
  constructor
  · intro _
    rwa [server]
  · intro unread
    rw [source] at unread
    cases unread
  · intro other consumed connected
    rw [source, Source.stream.injEq] at connected
    obtain ⟨rfl, rfl⟩ := connected
    refine ⟨Nat.zero_le _, ?_, fun _ _ => rfl⟩
    rw [session, processor]
    exact follows_nil
  · intro other _ msg isKnown
    rw [session, msg1] at isKnown
    cases isKnown

variable [DecidableEq ι]

theorem Wired.link (wired : Wired json name net) {new peer : ι × SessionId} (different : new ≠ peer)
    (created : new.2 < (net.server new.1).nextSession) (unknown : net.source new = .unknown)
    (opened : peer.2 < (net.server peer.1).nextSession) (free : net.source peer = .unknown) :
    Wired json name (net.link new peer) := by
  have self : (net.link new peer).source peer = .stream new 0 := Network.setSource_self ..
  have other : (net.link new peer).source new = .stream peer 0 := by
    rw [Network.link, Network.setSource_other different, Network.setSource_self]
  have rest : ∀ at', at' ≠ new → at' ≠ peer → (net.link new peer).source at' = net.source at' := by
    intro at' notNew notPeer
    rw [Network.link, Network.setSource_other notPeer, Network.setSource_other notNew]
  constructor
  · intro at'
    by_cases isPeer : at' = peer
    · subst isPeer
      exact attached_begin (wired.ends at') free opened rfl self
    by_cases isNew : at' = new
    · subst isNew
      exact attached_begin (wired.ends at') unknown created rfl other
    exact (wired.ends at').congr rfl (rest at' isNew isPeer)
  · intro at' partner connected
    by_cases isPeer : at' = peer
    · rw [isPeer, self] at connected
      cases connected
      rw [other, isPeer]
      rfl
    by_cases isNew : at' = new
    · rw [isNew, other] at connected
      cases connected
      rw [self, isNew]
      rfl
    rw [rest at' isNew isPeer] at connected
    -- the new ends have not been the partners of anybody
    have back := wired.partner at' partner connected
    have notNew : partner ≠ new := by
      rintro rfl
      rw [unknown] at back
      cases back
    have notPeer : partner ≠ peer := by
      rintro rfl
      rw [free] at back
      cases back
    rw [rest partner notNew notPeer]
    exact back

/-- A session has been given input by the program or the server that it had at its other end. -/
theorem Wired.hear (wired : Wired json name net) {t : Server} {source : Source ι}
    (goesOn : RefusedConnection.GoesOn (· = sid) (net.server i) t)
    (isAfter : after = (net.setServer i t).setSource (i, sid) source)
    (samePeer : source.peer = (net.source (i, sid)).peer) (read : Attached json name after (i, sid)) :
    Wired json name after := by
  have self : after.server i = t := by
    rw [isAfter]
    exact Network.setServer_self i net t
  have elsewhere : ∀ at', at' ≠ (i, sid) → after.source at' = net.source at' := by
    intro at' different
    rw [isAfter, Network.setSource_other different]
    rfl
  apply @Wired.advance ι json name net after i (· = sid) wired
  · intro j different
    rw [isAfter]
    exact Network.setServer_other different net t
  · rw [self]
    exact goesOn
  · intro at'
    by_cases same : at' = (i, sid)
    · rw [same, isAfter, Network.setSource_self]
      exact samePeer
    · rw [elsewhere at' same]
  · exact fun at' other => elsewhere at' fun same => other ⟨congrArg Prod.fst same, congrArg Prod.snd same⟩
  · rintro _ rfl
    exact read

end Connections

/-! ## The traffic -/

/-- The messages that come to a server of the network: from a program, or from another server whose node
they have left. -/
def Visits {ι : Type*} (name : ι → String) (enters : ι → PTree × Body → Prop) (i : ι) (frame : PTree × Body) :
    Prop :=
  ∃ k, enters k frame ∧ (k = i ∨ Outbound (name k) frame.1)

structure Traced {ι : Type*} (json : JsonCodec) (name : ι → String) (pid : ι → Nat)
    (enters : ι → PTree × Body → Prop) (net : Network ι) : Prop where
  standing : ∀ i, Standing json (name i) (pid i) (net.server i)
  wired : Wired json name net
  utters : ∀ i, Utters (transit json (name i) (Visits name enters i)) (net.server i)

section Traffic

variable {ι : Type*} {json : JsonCodec} {name : ι → String} {pid : ι → Nat}
  {enters : ι → PTree × Body → Prop} {net : Network ι} {i : ι} {sid : SessionId} {peer : ι × SessionId}
  {consumed length : Nat} {block : List Char}

theorem visits_mono {more : ι → PTree × Body → Prop} (grows : ∀ k frame, enters k frame → more k frame)
    (frame : PTree × Body) (visits : Visits name enters i frame) : Visits name more i frame := by
  obtain ⟨k, entered, way⟩ := visits
  exact ⟨k, grows k frame entered, way⟩

theorem Traced.grow {more : ι → PTree × Body → Prop} (traced : Traced json name pid enters net)
    (grows : ∀ k frame, enters k frame → more k frame) :
    Traced json name pid more net :=
  ⟨traced.standing, traced.wired, fun i => utters_more (visits_mono grows) (traced.utters i)⟩

/-- A text of a notice is read as the notice. -/
theorem notice_of_own (lawful : json.Lawful) {config : UConfig} {text : List Char}
    (own : Own json config text) {frame : PTree × Body} (read : Single json text frame) :
    ∃ notice : Notice, notice.Frame json config frame := by
  obtain ⟨notice, encoded⟩ := own
  obtain ⟨text', frame', encoded', isFrame, first⟩ := @Notice.text_eq json config lawful notice
  obtain rfl : text = text' := Option.some.inj (encoded.symm.trans encoded')
  have alone := (first []).1
  rw [List.append_nil, (single_iff.mp read).1] at alone
  obtain rfl : frame = frame' := (List.cons.inj (Prod.mk.inj alone).1).1
  exact ⟨notice, isFrame⟩

/-- The first message of a stream is a notice of the server at its other end. -/
theorem first_of_stream (lawful : json.Lawful)
    (standing : Standing json (name peer.1) (pid peer.1) (net.server peer.1))
    (created : peer.2 < (net.server peer.1).nextSession) :
    net.stream peer = [] ∨ ∃ (notice : Notice) (frame : PTree × Body),
      notice.Frame json ⟨name peer.1, "userver"⟩ frame ∧ ∀ part, part <+: net.stream peer →
        (∃ header, parse json part = ([], some header)) ∨
          ∃ frames waiting, parse json part = (frame :: frames, waiting) := by
  rcases first_notice standing created with nothing | ⟨text, rest, sent, notice, encoded⟩
  · left
    rw [Network.stream, Network.session, nothing]
    rfl
  · right
    obtain ⟨text', frame, encoded', isFrame, read⟩ :=
      @Notice.text_eq json ⟨name peer.1, "userver"⟩ lawful notice
    obtain rfl : text = text' := Option.some.inj (encoded.symm.trans encoded')
    refine ⟨notice, frame, isFrame, ?_⟩
    intro part isPart
    rw [Network.stream, Network.session, sent, List.flatten_cons] at isPart
    exact RefusedConnection.parse_first (fun rest => (read rest).1) isPart

/-- What is read from a server of the network are messages that it has written. -/
theorem written_of_block (traced : Traced json name pid enters net)
    (source : net.source (i, sid) = .stream peer consumed)
    (isBlock : block = ((net.stream peer).drop consumed).take length) :
    (net.stream peer).take consumed ++ block <+: net.stream peer ∧
      ∀ frame ∈ (Server.framesOf json block (net.session (i, sid)).processor).1,
        ∃ text ∈ (net.session peer).sent, Single json text frame := by
  have hears := ((traced.wired.ends (i, sid)).streams peer consumed source).2
  have isPart : (net.stream peer).take consumed ++ block <+: net.stream peer := by
    rw [isBlock, ← List.take_add]
    exact List.take_prefix _ _
  refine ⟨isPart, ?_⟩
  -- the whole stream is read as the messages that have been written, and a part of it as the first of them
  obtain ⟨frames, each⟩ := frames_of_texts ((traced.standing peer.1).framed.utters.sessions peer.2).sent
  obtain ⟨rest, isStream⟩ := isPart
  have whole : parse json ((net.stream peer).take consumed ++ block ++ rest) = (frames, some none) := by
    rw [isStream]
    exact (parse_texts each).1
  obtain ⟨heard, header, parsed, first⟩ := parse_of_prefix whole
  rw [parse_block hears.follows] at parsed
  intro frame member
  have isHeard : frame ∈ heard := (Prod.mk.inj parsed).1 ▸ List.mem_append_right _ member
  obtain ⟨n, bound, isFrame⟩ := List.mem_iff_getElem.mp (first.subset isHeard)
  have count := each.length_eq
  refine ⟨(net.session peer).sent.get ⟨n, count.symm ▸ bound⟩, List.get_mem _ _, ?_⟩
  have single := each.get (count.symm ▸ bound) bound
  have isFrame : frames.get ⟨n, bound⟩ = frame := isFrame
  rw [isFrame] at single
  exact single

/-- A server of the same node is never known to a server, and of another one what it hears first is the
introduction. -/
theorem introduced (lawful : json.Lawful) (named : ∀ i, name i ≠ "")
    (traced : Traced json name pid enters net) (source : net.source (i, sid) = .stream peer consumed)
    (isBlock : block = ((net.stream peer).drop consumed).take length) (nonempty : block ≠ []) {t : Server}
    (returned : (net.server i).read json ⟨name i, "userver"⟩ sid block = some t) :
    (name peer.1 ≠ name i → (t.store.session sid).msg1 = none →
        (parse json ((net.stream peer).take consumed ++ block)).1 = []) ∧
      ∀ msg, (t.store.session sid).msg1 = some msg →
        msg.from = ⟨"userver", name peer.1⟩ ∧ name peer.1 ≠ name i := by
  have known := traced.wired.ends (i, sid)
  have hears := (known.streams peer consumed source).2
  have connected := peer_of_stream source
  have standing := traced.standing i
  obtain ⟨isPart, written⟩ := written_of_block traced source isBlock
  cases isKnown : (net.session (i, sid)).msg1 with
  | some msg1 =>
    -- the session keeps the peer that it has
    obtain ⟨events, run⟩ :=
      @Server.read_exec json ⟨name i, "userver"⟩ lawful (pid i) sid block (net.server i) t returned
    have stays := (Server.evolves_exec lawful run.executed).msg1 sid (read_created returned) msg1 isKnown
    rw [stays]
    refine ⟨fun _ unknown => (by cases unknown), ?_⟩
    rintro msg ⟨rfl⟩
    exact known.met peer connected msg1 isKnown
  | none =>
    by_cases abroad : name peer.1 ≠ name i
    · rcases first_of_stream lawful (traced.standing peer.1) (traced.wired.created connected) with
        nothing | ⟨notice, frame, isFrame, first⟩
      · rw [nothing, List.drop_nil, List.take_nil] at isBlock
        exact absurd isBlock nonempty
      -- the first notice is the introduction, unless it has not arrived as a whole
      · have passes := (notice_passes (named peer.1) isFrame (some sid)).mpr abroad
        rcases RefusedConnection.read_unknown lawful standing.tabled.blank isKnown hears.follows
          (hears.silent abroad isKnown) (first _ isPart) passes returned with
          ⟨silent, unknown, _⟩ | ⟨_, msg1⟩
        · rw [unknown]
          exact ⟨fun _ _ => silent, fun _ isMsg => (by cases isMsg)⟩
        · rw [msg1]
          refine ⟨fun _ unknown => (by cases unknown), ?_⟩
          rintro msg ⟨rfl⟩
          exact ⟨(RoleAssignment.incoming_notice isFrame (some sid)).1, abroad⟩
    · have home : name peer.1 = name i := not_not.mp abroad
      -- neither end knows the other, so there is nothing but notices in the stream
      have unknown : (net.session peer).msg1 = none := by
        by_contra isMsg
        obtain ⟨msg, isMsg⟩ := Option.ne_none_iff_exists'.mp isMsg
        have partner := traced.wired.partner _ _ connected
        exact ((traced.wired.ends peer).met (i, sid) partner msg isMsg).2 home.symm
      have notices : ∀ frame ∈ (Server.framesOf json block (net.session (i, sid)).processor).1,
          ∃ notice : Notice, notice.Frame json ⟨name i, "userver"⟩ frame := by
        intro frame member
        obtain ⟨text, sent, single⟩ := written frame member
        rcases ((traced.utters peer.1).sessions peer.2).sent text sent with own | ⟨_, _, _, addr, isPeer, _⟩
        · rw [home] at own
          exact notice_of_own lawful own single
        · obtain ⟨msg, isMsg, _⟩ := Option.map_eq_some_iff.mp isPeer
          have isMsg : (net.session peer).msg1 = some msg := isMsg
          rw [unknown] at isMsg
          cases isMsg
      have stays := stays_unknown lawful standing isKnown (named i) notices returned
      rw [stays]
      exact ⟨fun foreign => absurd foreign abroad, fun _ isMsg => (by cases isMsg)⟩

/-- What is read from another server is a notice, or it has left the node of that server. -/
theorem expected_of_block (lawful : json.Lawful) (traced : Traced json name pid enters net)
    (source : net.source (i, sid) = .stream peer consumed)
    (isBlock : block = ((net.stream peer).drop consumed).take length) :
    ∀ frame ∈ (Server.framesOf json block (net.session (i, sid)).processor).1,
      Expected json (name i) (Visits name enters i) frame := by
  intro frame member
  have connected := peer_of_stream source
  obtain ⟨text, sent, single⟩ := (written_of_block traced source isBlock).2 frame member
  rcases ((traced.utters peer.1).sessions peer.2).sent text sent with
    own | ⟨visitor, ⟨k, entered, way⟩, same, addr, isPeer, allowed⟩
  · obtain ⟨notice, isFrame⟩ := notice_of_own lawful own single
    left
    have service := (@RoleAssignment.incoming_notice json (name i) (name peer.1) notice frame.1 frame.2
      isFrame (some sid)).2.2.1
    rwa [Msg.incoming_destType] at service
  · right
    -- the peer of that session is this server
    obtain ⟨msg, isMsg, rfl⟩ := Option.map_eq_some_iff.mp isPeer
    have partner := traced.wired.partner _ _ connected
    obtain ⟨sender, abroad⟩ := (traced.wired.ends peer).met (i, sid) partner msg isMsg
    have outbound : Outbound (name peer.1) visitor.1 := by
      rcases allowed with home | outbound
      · rw [sender] at home
        exact absurd home abroad
      · exact outbound
    refine ⟨visitor, ⟨k, entered, .inr ?_⟩, ?_, fun _ again => same.trans single again⟩
    · rcases way with rfl | way
      · exact outbound
      · exact way
    · obtain ⟨body, single', _⟩ := same
      have header := congrArg Prod.fst (record_unique single' single)
      exact header

theorem traced_initial (now : ι → Nat) (remotes : ι → List String) (enters : ι → PTree × Body → Prop) :
    Traced json name pid enters (.initial name now remotes) := by
  refine ⟨fun i => standing_initial (now i) (remotes i), ⟨?_, ?_⟩, ?_⟩
  · rintro ⟨i, sid⟩
    constructor
    · exact fun attached => absurd rfl attached
    · exact fun _ below => absurd below (Nat.not_lt_zero sid)
    · intro peer consumed connected
      cases connected
    · intro peer connected
      cases connected
  · intro at' peer connected
    cases connected
  · intro i
    refine ⟨fun _ => speaks_fresh rfl rfl, ?_⟩
    intro node remote registered
    cases registered

end Traffic

/-! ## Runs -/

/-- The event is the input from a program that brings the message to the server `k`, over a session that
is authenticated when it has been read. -/
def Enters {ι : Type*} (json : JsonCodec) (net : Network ι) (e : NetworkEvent ι) (after : Network ι) (k : ι)
    (frame : PTree × Body) : Prop :=
  match e with
  | .input i sid block => k = i ∧ frame ∈ (Server.framesOf json block (net.session (i, sid)).processor).1 ∧
      (after.session (i, sid)).authenticated = true
  | _ => False

section Steps

variable {ι : Type*} [DecidableEq ι] {json : JsonCodec} {name : ι → String} {pid : ι → Nat}
  {enters more : ι → PTree × Body → Prop} {net after : Network ι} {i : ι} {sid : SessionId} {t : Server}

/-- One server has moved. -/
theorem Traced.move (traced : Traced json name pid enters net)
    (server : after.server = (net.setServer i t).server)
    (grows : ∀ k frame, enters k frame → more k frame) (standing : Standing json (name i) (pid i) t)
    (wired : Wired json name after) (utters : Utters (transit json (name i) (Visits name more i)) t) :
    Traced json name pid more after := by
  refine ⟨?_, wired, ?_⟩
  · intro j
    by_cases moved : j = i
    · subst moved
      rw [server, Network.setServer_self]
      exact standing
    · rw [server, Network.setServer_other moved]
      exact traced.standing j
  -- the messages that have visited the other nodes are still among those that may
  · intro j
    by_cases moved : j = i
    · subst moved
      rw [server, Network.setServer_self]
      exact utters
    · rw [server, Network.setServer_other moved]
      exact utters_more (visits_mono grows) (traced.utters j)

/-- A server has moved without input. -/
theorem traced_other (lawful : json.Lawful) (traced : Traced json name pid enters net) {e : ServerEvent}
    (next : (net.server i).socketStep json ⟨name i, "userver"⟩ (pid i) (.other e) = some t) :
    Traced json name pid enters (net.setServer i t) := by
  have goesOn := goesOn_other lawful (traced.standing i) next
  have wired : Wired json name (net.setServer i t) := by
    apply @Wired.advance ι json name net (net.setServer i t) i (fun _ => False) traced.wired
    · exact fun j different => Network.setServer_other different net t
    · rw [Network.setServer_self]
      exact goesOn
    · exact fun _ => rfl
    · exact fun _ _ => rfl
    · exact fun _ reads => reads.elim
  apply traced.move rfl (fun _ _ entered => entered) (standing_step lawful (traced.standing i) next) wired
  apply utters_step transit_fair (traced.utters i) (Server.socketStep_other next)
  rintro sid header body rfl
  cases next

theorem traced_link (traced : Traced json name pid enters net) {new peer : ι × SessionId}
    (different : new ≠ peer)
    (created : new.2 < (net.server new.1).nextSession) (unknown : net.source new = .unknown)
    (opened : peer.2 < (net.server peer.1).nextSession) (free : net.source peer = .unknown) :
    Traced json name pid enters (net.link new peer) :=
  ⟨traced.standing, traced.wired.link different created unknown opened free, traced.utters⟩

theorem traced_input (lawful : json.Lawful) (traced : Traced json name pid enters net) {block : List Char}
    (source : net.source (i, sid) = .unknown ∨ net.source (i, sid) = .program)
    (returned : (net.server i).read json ⟨name i, "userver"⟩ sid block = some t)
    (isAfter : after = (net.setServer i t).setSource (i, sid) .program) :
    Traced json name pid (fun k frame => enters k frame ∨ Enters json net (.input i sid block) after k frame)
      after := by
  obtain ⟨created, goesOn⟩ := goesOn_read lawful (traced.standing i) returned
  have self : after.server i = t := by
    rw [isAfter]
    exact Network.setServer_self i net t
  have isProgram : after.source (i, sid) = .program := by
    rw [isAfter, Network.setSource_self]
  have wired : Wired json name after := by
    apply traced.wired.hear goesOn isAfter
    · rcases source with source | source
      · rw [source]
        rfl
      · rw [source]
    constructor
    · intro _
      rw [self]
      exact created.trans_le goesOn.next
    · intro unknown
      rw [isProgram] at unknown
      cases unknown
    · intro peer consumed connected
      rw [isProgram] at connected
      cases connected
    · intro peer connected
      rw [isProgram] at connected
      cases connected
  refine traced.move (by rw [isAfter]; rfl) (fun _ _ => Or.inl)
    (standing_step (e := .input sid block) lawful (traced.standing i) returned) wired ?_
  -- while the session is not authenticated, its messages do not get into the network
  have read := @utters_read json (name i) (pid i) (net.server i) t sid lawful (traced.standing i)
    (fun authenticated frame => Visits name enters i frame ∨
      (frame ∈ (Server.framesOf json block (net.session (i, sid)).processor).1 ∧ authenticated))
    (fun weaker _ => Or.imp id (And.imp id weaker)) block
    (utters_more (fun _ => Or.inl) (traced.utters i))
    (fun frame member => .inr ⟨frame, .inr ⟨member, trivial⟩, rfl, fun _ same => same⟩) returned
  apply utters_more _ read
  rintro frame (visits | ⟨member, authenticated⟩)
  · exact visits_mono (fun _ _ => Or.inl) frame visits
  · have known : (after.session (i, sid)).authenticated = true := by
      rw [Network.session, self]
      exact authenticated
    exact ⟨i, .inr ⟨rfl, member, known⟩, .inl rfl⟩

theorem traced_transfer (lawful : json.Lawful) (named : ∀ i, name i ≠ "")
    (traced : Traced json name pid enters net) {peer : ι × SessionId} {consumed length : Nat}
    {block : List Char}
    (source : net.source (i, sid) = .stream peer consumed)
    (isBlock : block = ((net.stream peer).drop consumed).take length) (nonempty : block ≠ [])
    (returned : (net.server i).read json ⟨name i, "userver"⟩ sid block = some t)
    (isAfter : after = (net.setServer i t).readOn (i, sid) peer (consumed + block.length)) :
    Traced json name pid enters after := by
  obtain ⟨created, goesOn⟩ := goesOn_read lawful (traced.standing i) returned
  have known := traced.wired.ends (i, sid)
  obtain ⟨bound, hears⟩ := known.streams peer consumed source
  have connected := peer_of_stream source
  obtain ⟨silent, met⟩ := introduced lawful named traced source isBlock nonempty returned
  have self : after.server i = t := by
    rw [isAfter]
    exact Network.setServer_self i net t
  have others : ∀ j, j ≠ i → after.server j = net.server j := by
    intro j different
    rw [isAfter]
    exact Network.setServer_other different net t
  have session : after.session (i, sid) = t.store.session sid := by
    rw [Network.session, self]
  obtain ⟨next, isSource, isAfter'⟩ : ∃ next, next = (if (t.store.session sid).reading = .pending then
      .stream peer (consumed + block.length) else .ended peer) ∧
        after = (net.setServer i t).setSource (i, sid) next := by
    refine ⟨_, rfl, ?_⟩
    rw [isAfter, Network.readOn, Network.session, Network.setServer_self]
  have readsOn : after.source (i, sid) = next := by
    rw [isAfter', Network.setSource_self]
  have samePeer : next.peer = some peer := by
    rw [isSource]
    split <;> rfl
  have wired : Wired json name after := by
    apply traced.wired.hear goesOn isAfter' (samePeer.trans connected.symm)
    constructor
    · intro _
      rw [self]
      exact created.trans_le goesOn.next
    · intro unknown
      rw [← readsOn, unknown] at samePeer
      cases samePeer
    · intro other count reads
      rw [readsOn, isSource] at reads
      split at reads
      next pending =>
        cases reads
        obtain ⟨isPart, _⟩ := written_of_block traced source isBlock
        -- with a session of the same server at the other end, the stream may have grown meanwhile
        have grown := @stream_grows ι net after i _ others (self.symm ▸ goesOn) peer
          (traced.wired.created connected)
        have total : consumed + block.length = ((net.stream peer).take consumed ++ block).length := by
          rw [List.length_append, List.length_take_of_le bound]
        have heard : (after.stream peer).take (consumed + block.length) =
            (net.stream peer).take consumed ++ block := by
          rw [total]
          exact (List.prefix_iff_eq_take.mp (isPart.trans grown)).symm
        refine ⟨total ▸ (isPart.trans grown).length_le, ?_, ?_⟩
        · rw [heard, session]
          exact follows_read hears.follows returned pending
        · rw [heard, session]
          exact silent
      next => cases reads
    · intro other partner
      rw [readsOn, samePeer, Option.some.injEq] at partner
      subst partner
      rw [session]
      exact met
  refine traced.move (by rw [isAfter]; rfl) (fun _ _ entered => entered)
    (standing_step (e := .input sid block) lawful (traced.standing i) returned) wired ?_
  exact @utters_read json (name i) (pid i) (net.server i) t sid lawful (traced.standing i)
    (fun _ => Visits name enters i) (fun _ _ visits => visits) block (traced.utters i)
    (expected_of_block lawful traced source isBlock) returned

theorem traced_step (lawful : json.Lawful) (named : ∀ i, name i ≠ "")
    (traced : Traced json name pid enters net)
    {e : NetworkEvent ι} (next : net.step json name pid e = some after) :
    Traced json name pid (fun k frame => enters k frame ∨ Enters json net e after k frame) after := by
  have before : ∀ k frame, enters k frame → enters k frame ∨ Enters json net e after k frame :=
    fun _ _ => Or.inl
  cases e with
  | alone i e =>
    obtain ⟨t, moved, rfl⟩ : ∃ t,
        (net.server i).socketStep json ⟨name i, "userver"⟩ (pid i) (.other e) = some t ∧
          net.setServer i t = after := by
      cases e with
      | accept raddr => cases next
      | tick | fire | onTimer | pokeTask | resolved | connectHandler | received | readAgain | readFailed
      | written =>
        exact Option.map_eq_some_iff.mp next
    exact (traced_other lawful traced moved).grow before
  | accept i raddr peer =>
    cases peer with
    | none =>
      obtain ⟨t, accepted, rfl⟩ := Option.map_eq_some_iff.mp next
      exact (traced_other lawful traced (e := .accept raddr) accepted).grow before
    | some peer =>
      simp only [Network.step] at next
      split at next
      next free =>
        obtain ⟨opened, _, free⟩ := free
        obtain ⟨u, linked, rfl⟩ := Option.map_eq_some_iff.mp next
        obtain ⟨t, accepted, rfl⟩ := Option.map_eq_some_iff.mp linked
        have count := accept_next accepted
        -- the session is new, so it is at the end of no connection yet
        have unknown : net.source (i, (net.server i).nextSession) = .unknown := by
          by_contra attached
          exact absurd ((traced.wired.ends _).created attached) (Nat.lt_irrefl _)
        have moved := traced_other lawful traced (e := .accept raddr) accepted
        have created : (net.server i).nextSession < ((net.setServer i t).server i).nextSession := by
          rw [Network.setServer_self, count]
          exact Nat.lt_succ_self _
        have still : peer.2 < ((net.setServer i t).server peer.1).nextSession := by
          by_cases same : peer.1 = i
          · rw [same, Network.setServer_self, count]
            rw [same] at opened
            exact opened.trans (Nat.lt_succ_self _)
          · rw [Network.setServer_other same]
            exact opened
        have different : (i, (net.server i).nextSession) ≠ peer := by
          rintro rfl
          exact absurd opened (Nat.lt_irrefl _)
        exact (traced_link moved different created unknown still free).grow before
      next => cases next
  | input i sid block =>
    simp only [Network.step] at next
    split at next
    next source =>
      obtain ⟨u, read, rfl⟩ := Option.map_eq_some_iff.mp next
      obtain ⟨t, returned, rfl⟩ := Option.map_eq_some_iff.mp read
      exact traced_input lawful traced source returned rfl
    next => cases next
  | transfer i sid length =>
    simp only [Network.step] at next
    split at next
    next peer consumed source =>
      split at next
      next => cases next
      next nonempty =>
        obtain ⟨u, read, rfl⟩ := Option.map_eq_some_iff.mp next
        obtain ⟨t, returned, rfl⟩ := Option.map_eq_some_iff.mp read
        exact (traced_transfer lawful named traced source rfl nonempty returned rfl).grow before
    next => cases next

/-- In the run a program has brought the message to the server `k`, over an authenticated session. -/
def Submitted {ι : Type*} [DecidableEq ι] (json : JsonCodec) (name : ι → String) (pid : ι → Nat)
    (net : Network ι) (events : List (NetworkEvent ι)) (k : ι) (frame : PTree × Body) : Prop :=
  ∃ before e rest u v, events = before ++ e :: rest ∧ exec (Network.step json name pid) net before = some u ∧
    u.step json name pid e = some v ∧ Enters json u e v k frame

theorem traced_exec (lawful : json.Lawful) (named : ∀ i, name i ≠ "")
    (initial : ∀ enters, Traced json name pid enters net) {events : List (NetworkEvent ι)}
    (executed : exec (Network.step json name pid) net events = some after) :
    Traced json name pid (Submitted json name pid net events) after := by
  -- from the end, as the last event follows everything that has been submitted before it
  induction events using List.reverseRecOn generalizing after with
  | nil =>
    cases executed
    exact initial _
  | append_singleton events e inductionHypothesis =>
    obtain ⟨u, before, last⟩ := exec_append_some.mp executed
    rw [exec_singleton] at last
    apply (traced_step lawful named (inductionHypothesis before) last).grow
    rintro k frame (⟨first, e', rest, v, w, rfl, reached, next, entered⟩ | entered)
    · exact ⟨first, e', rest ++ [e], v, w, by simp, reached, next, entered⟩
    · exact ⟨events, e, [], u, after, rfl, before, last, entered⟩

end Steps

section Results

variable {ι : Type*} [DecidableEq ι] {json : JsonCodec} {name : ι → String}

/-- In every run of a network of servers: what a session has written or is going to write is a notice of
its server, or it is a message that a program has brought into the network over an authenticated session,
to this server or to another one whose node it has left.  It goes to an authenticated peer, and to nobody
but an application of the node unless it leaves the node. -/
theorem network_traffic (lawful : json.Lawful) (named : ∀ i, name i ≠ "") (pid now : ι → Nat)
    (remotes : ι → List String) {events : List (NetworkEvent ι)} {net : Network ι}
    (executed : exec (Network.step json name pid) (.initial name now remotes) events = some net)
    (i : ι) (sid : SessionId) {text : List Char}
    (written : text ∈ (net.session (i, sid)).sent ++ (net.session (i, sid)).outQueue.map QueuedMsg.rawmsg) :
    Own json ⟨name i, "userver"⟩ text ∨ ∃ frame,
      Visits name (Submitted json name pid (.initial name now remotes) events) i frame ∧ Same json frame text ∧
        ∃ addr, (net.session (i, sid)).peer = some addr ∧ (addr.node = name i ∨ Outbound (name i) frame.1) := by
  have speaks := ((traced_exec lawful named (traced_initial now remotes) executed).utters i).sessions sid
  rcases List.mem_append.mp written with sent | waits
  · exact speaks.sent text sent
  · obtain ⟨queued, member, rfl⟩ := List.mem_map.mp waits
    exact speaks.queued queued member

/-- `uecho` and `usender` connect to `beta`, and `usender` sends a message to `uecho`. -/
def programsPing : List (NetworkEvent Unit) :=
  let text (msg : Msg) := (msg.charvec Json.compactJson).getD []
  [.accept () "127.0.0.1" none,
    .input () 0 (text (.outgoing ⟨"beta", "uecho"⟩ .none "auth" .empty)),
    .accept () "127.0.0.1" none,
    .input () 1 (text (.outgoing ⟨"beta", "usender"⟩ .none "auth" .empty)),
    .input () 1 (text (.outgoing ⟨"beta", "usender"⟩ ⟨"uecho", "beta"⟩ "ping" .empty))]

theorem network_traffic_ping : ∃ net text,
    exec (Network.step Json.compactJson (fun _ => "beta") (fun _ => 1))
      (.initial (fun _ => "beta") (fun _ => 0) (fun _ => [])) programsPing = some net ∧
      ((net.session ((), 0)).outQueue.map QueuedMsg.rawmsg)[1]? = some text ∧
      (Own Json.compactJson ⟨"beta", "userver"⟩ text ∨ ∃ frame,
        Visits (fun _ => "beta") (Submitted Json.compactJson (fun _ => "beta") (fun _ => 1)
          (.initial (fun _ => "beta") (fun _ => 0) (fun _ => [])) programsPing) () frame ∧
        Same Json.compactJson frame text ∧ ∃ addr, (net.session ((), 0)).peer = some addr ∧
          (addr.node = "beta" ∨ Outbound "beta" frame.1)) := by
  have reached : ((exec (Network.step Json.compactJson (fun _ => "beta") (fun _ => 1))
      (.initial (fun _ => "beta") (fun _ => 0) (fun _ => [])) programsPing).bind fun net =>
        ((net.session ((), 0)).outQueue.map QueuedMsg.rawmsg)[1]?).isSome = true := by
    decide +kernel
  obtain ⟨text, isText⟩ := Option.isSome_iff_exists.mp reached
  obtain ⟨net, executed, found⟩ := Option.bind_eq_some_iff.mp isText
  exact ⟨net, text, executed, found, network_traffic Json.compactJson_lawful (fun _ => by decide) (fun _ => 1)
    (fun _ => 0) (fun _ => []) executed () 0 (List.mem_append_right _ (List.mem_of_getElem? found))⟩

/-- In every run of a network of servers, a server that has authenticated the server at the other end of
a connection knows it by its name, which is not its own; and nothing gets into the connection but notices
of the server and messages that leave its node. -/
theorem connections_abroad (lawful : json.Lawful) (named : ∀ i, name i ≠ "") (pid now : ι → Nat)
    (remotes : ι → List String) {events : List (NetworkEvent ι)} {net : Network ι}
    (executed : exec (Network.step json name pid) (.initial name now remotes) events = some net)
    {i : ι} {sid : SessionId} {peer : ι × SessionId} (connected : (net.source (i, sid)).peer = some peer) :
    (∀ addr, (net.session (i, sid)).peer = some addr →
        addr = ⟨"userver", name peer.1⟩ ∧ name peer.1 ≠ name i) ∧
      ∀ text ∈ (net.session (i, sid)).sent ++ (net.session (i, sid)).outQueue.map QueuedMsg.rawmsg,
        Own json ⟨name i, "userver"⟩ text ∨ ∃ frame,
          Visits name (Submitted json name pid (.initial name now remotes) events) i frame ∧
            Same json frame text ∧ Outbound (name i) frame.1 := by
  have traced := traced_exec lawful named (traced_initial now remotes) executed
  have known : ∀ addr, (net.session (i, sid)).peer = some addr →
      addr = ⟨"userver", name peer.1⟩ ∧ name peer.1 ≠ name i := by
    intro addr isPeer
    obtain ⟨msg, isMsg, rfl⟩ := Option.map_eq_some_iff.mp isPeer
    exact (traced.wired.ends (i, sid)).met peer connected msg isMsg
  refine ⟨known, ?_⟩
  have allowed : ∀ text, (transit json (name i)
      (Visits name (Submitted json name pid (.initial name now remotes) events) i)).session
        (net.session (i, sid)).peer text → Own json ⟨name i, "userver"⟩ text ∨ ∃ frame,
          Visits name (Submitted json name pid (.initial name now remotes) events) i frame ∧
            Same json frame text ∧ Outbound (name i) frame.1 := by
    rintro text (own | ⟨frame, visits, same, addr, isPeer, way⟩)
    · exact .inl own
    · obtain ⟨rfl, abroad⟩ := known addr isPeer
      exact .inr ⟨frame, visits, same, way.resolve_left abroad⟩
  have speaks := (traced.utters i).sessions sid
  intro text written
  rcases List.mem_append.mp written with sent | waits
  · exact allowed text (speaks.sent text sent)
  · obtain ⟨queued, member, rfl⟩ := List.mem_map.mp waits
    exact allowed _ (speaks.queued queued member)

/-- The server of `alpha` connects to that of `beta`, and reads its introduction. -/
def introduction : List (NetworkEvent Bool) :=
  [.alone false .fire, .alone false (.onTimer 0), .alone false (.resolved 0 (some "10.0.0.2")),
    .accept true "10.0.0.1" (some (false, 0)), .alone false (.connectHandler 0 true), .transfer false 0 200]

theorem connections_abroad_introduction : ∃ net,
    exec (Network.step Json.compactJson (fun i => if i then "beta" else "alpha") (fun _ => 1))
      (.initial (fun i => if i then "beta" else "alpha") (fun _ => 0) (fun i => if i then [] else ["beta"]))
      introduction = some net ∧
    (net.source (false, 0)).peer = some (true, 0) ∧ (net.session (false, 0)).peer = some ⟨"userver", "beta"⟩ ∧
    (∀ addr, (net.session (false, 0)).peer = some addr → addr = ⟨"userver", "beta"⟩ ∧ "beta" ≠ "alpha") := by
  have reached : (exec (Network.step Json.compactJson (fun i => if i then "beta" else "alpha") (fun _ => 1))
      (.initial (fun i => if i then "beta" else "alpha") (fun _ => 0) (fun i => if i then [] else ["beta"]))
      introduction).map (fun net => ((net.source (false, 0)).peer, (net.session (false, 0)).peer)) =
        some (some (true, 0), some ⟨"userver", "beta"⟩) := by
    decide +kernel
  obtain ⟨net, executed, isPeer⟩ := Option.map_eq_some_iff.mp reached
  obtain ⟨connected, known⟩ := Prod.mk.inj isPeer
  have named : ∀ i : Bool, (if i then "beta" else "alpha") ≠ "" := by
    intro i
    cases i <;> decide
  exact ⟨net, executed, connected, known, (connections_abroad Json.compactJson_lawful named (fun _ => 1)
    (fun _ => 0) (fun i => if i then [] else ["beta"]) executed connected).1⟩

end Results

end Uzel.Verified.NetworkTraffic
