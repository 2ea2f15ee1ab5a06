import Uzel.Verified.FirstTexts
import Uzel.Verified.PriorityAgreement

/-! # Refused connections

`do_accept` refuses a connection by saying goodbye on a session that it does not start.  The other end
has been started when its connect succeeded, and it waits for an authentication.  The goodbye is the
first message that it hears, it comes from the userver of a node, and that is all `authenticate` asks
for.

The two servers of this module may be connected to anybody else as well.  `refusal_runs_iff` says that
a session is authenticated by nothing but the authentication of its peer in exactly those runs in which
no goodbye of a refused connection is read to its end.
-/

namespace Uzel.Verified.RefusedConnection

open Foundation Protocol Handlers RoleAssignment PriorityAgreement FirstTexts

/-! ## Two servers among others -/

/-- Two servers, with what they have done about connections of theirs. -/
structure Meeting where
  net : Net
  /-- the sessions that `do_accept` has refused -/
  refused : Side → List SessionId
  /-- the sessions that have heard from somebody else than the other server -/
  strangers : Side → List SessionId

inductive MeetingEvent where
  | alone (side : Side) (e : ServerEvent)
  | accept (side : Side) (sid : SessionId) (raddr : String)
  | read (side : Side) (sid : SessionId) (length : Nat)

/-- The session whose input an event takes. -/
def reader : ServerEvent → Option SessionId
  | .received sid _ _ | .readAgain sid _ => some sid
  | _ => none

/-- The refused sessions after an event. -/
def refusals (s : Server) (refused : List SessionId) : ServerEvent → List SessionId
  | .accept raddr => if s.refuses raddr then refused ++ [s.nextSession] else refused
  | _ => refused

namespace Meeting

/-- One of the servers has handled an event. -/
def handled (side : Side) (e : ServerEvent) (server : Server) (m : Meeting) : Meeting where
  net := m.net.setServer side server
  refused := Function.update m.refused side (refusals (m.net.server side) (m.refused side) e)
  strangers := Function.update m.strangers side ((reader e).toList ++ m.strangers side)

variable (json : JsonCodec) (name : Side → String) (pid : Side → Nat)

/-- A connection leads to the other server or to somebody else.  In the second case anything may be
read from it. -/
def step (m : Meeting) : MeetingEvent → Option Meeting
  | .alone side e =>
    if ∀ sid ∈ reader e, sid < (m.net.server side).nextSession ∧ m.net.peer side sid = none then
      ((m.net.server side).step json (Net.config name side) (pid side) e).map fun server =>
        m.handled side e server
    else none
  | .accept side sid raddr =>
    if sid ∈ m.strangers side.other then none
    else (m.net.accept json name pid side sid raddr).map fun net =>
      { m.handled side (.accept raddr) (net.server side) with net }
  | .read side sid length =>
    (m.net.read json name side sid length).map fun net => { m with net }

def initial (now : Side → Nat) (remotes : Side → List String) : Meeting where
  net := .initial name now remotes
  refused _ := []
  strangers _ := []

end Meeting

/-- The message is the one that `start()` of the session at the other end has put into its queue. -/
def Introduces (json : JsonCodec) (name : Side → String) (pid : Side → Nat) (net : Net) (side : Side)
    (sid peer : SessionId) (msg : Msg) : Prop :=
  ∃ text frame, (net.session side.other peer).sent.head? = some text ∧
    (Notice.auth (pid side.other)).text json (Net.config name side.other) = some text ∧
    parse json text = ([frame], some none) ∧
    msg = .incoming (Net.config name side) frame.1 frame.2 (some sid)

/-- A session whose connection has been refused at the other end is not authenticated and has no place
in a channel, and a session of a connection is authenticated by the introduction of its peer only. -/
structure Refusal (json : JsonCodec) (name : Side → String) (pid : Side → Nat) (m : Meeting) : Prop where
  refused : ∀ side sid peer, m.net.peer side sid = some peer → peer ∈ m.refused side.other →
    (m.net.session side sid).authenticated = false ∧ ∀ node, ¬ (m.net.server side).holds node sid
  introduced : ∀ side sid peer msg, m.net.peer side sid = some peer →
    (m.net.session side sid).msg1 = some msg → Introduces json name pid m.net side sid peer msg

/-- The goodbye of a refused connection is not read to the end of its line. -/
def Unheard (m : Meeting) : MeetingEvent → Prop
  | .read side sid length => ∀ peer, m.net.peer side sid = some peer → peer ∈ m.refused side.other →
      '\n' ∉ (m.net.inFlight side sid).take length
  | _ => True

/-! ## One server -/

/-- A server goes on: streams grow, and only the sessions in `reads` get further in their input. -/
structure GoesOn (reads : SessionId → Prop) (s t : Server) : Prop where
  next : s.nextSession ≤ t.nextSession
  streams : ∀ sid < s.nextSession, (s.store.session sid).sent <+: (t.store.session sid).sent
  unread : ∀ sid < s.nextSession, ¬ reads sid →
    (t.store.session sid).msg1 = (s.store.session sid).msg1 ∧
      (t.store.session sid).processor = (s.store.session sid).processor
  fresh : ∀ sid < t.nextSession, s.nextSession ≤ sid →
    (t.store.session sid).msg1 = none ∧ (t.store.session sid).processor = .fresh

section OneServer

variable {json : JsonCodec} {name : Side → String} {pid : Side → Nat} {side : Side} {s t u : Server}
  {sid : SessionId}

theorem GoesOn.refl (reads : SessionId → Prop) (s : Server) : GoesOn reads s s :=
  ⟨Nat.le_refl _, fun _ _ => List.prefix_rfl, fun _ _ _ => ⟨rfl, rfl⟩,
    fun _ below above => absurd below (Nat.not_lt.mpr above)⟩

theorem GoesOn.mono {reads more : SessionId → Prop} (goesOn : GoesOn reads s t)
    (weaker : ∀ sid, reads sid → more sid) : GoesOn more s t :=
  ⟨goesOn.next, goesOn.streams, fun sid old other => goesOn.unread sid old (other ∘ weaker sid),
    goesOn.fresh⟩

theorem GoesOn.trans {reads : SessionId → Prop} (first : GoesOn reads s t) (second : GoesOn reads t u)
    (created : ∀ sid, reads sid → sid < s.nextSession) : GoesOn reads s u where
  next := first.next.trans second.next
  streams sid old := (first.streams sid old).trans (second.streams sid (old.trans_le first.next))
  unread sid old other := by
    obtain ⟨msg1, processor⟩ := first.unread sid old other
    obtain ⟨msg1', processor'⟩ := second.unread sid (old.trans_le first.next) other
    exact ⟨msg1'.trans msg1, processor'.trans processor⟩
  fresh sid below above := by
    by_cases between : sid < t.nextSession
    · have other : ¬ reads sid := fun reads => Nat.not_lt.mpr above (created sid reads)
      obtain ⟨msg1, processor⟩ := first.fresh sid between above
      obtain ⟨msg1', processor'⟩ := second.unread sid between other
      exact ⟨msg1'.trans msg1, processor'.trans processor⟩
    · exact second.fresh sid below (Nat.le_of_not_lt between)

/-- What an event does to the first messages is known (`msg1_step`), so the rest is about the bytes. -/
theorem goesOn_of_bytes {config : UConfig} {e : ServerEvent} (blank : s.Blank)
    (created : ∀ sid ∈ reader e, sid < s.nextSession)
    (msg1 : ∀ sid, (t.store.session sid).msg1 = s.msg1After config e sid)
    (next : s.nextSession ≤ t.nextSession)
    (streams : ∀ sid < s.nextSession, (s.store.session sid).sent <+: (t.store.session sid).sent)
    (processors : ∀ sid < s.nextSession, sid ∉ reader e →
      (t.store.session sid).processor = (s.store.session sid).processor)
    (fresh : ∀ sid < t.nextSession, s.nextSession ≤ sid → (t.store.session sid).processor = .fresh) :
    GoesOn (· ∈ reader e) s t := by
  have same : ∀ sid, sid ∉ reader e → (t.store.session sid).msg1 = (s.store.session sid).msg1 := by
    intro sid other
    rw [msg1]
    cases e with
    | received caller header body =>
      have different : sid ≠ caller := fun same => other (same ▸ rfl)
      simp [Server.msg1After, different]
    | _ => rfl
  refine ⟨next, streams, fun sid old other => ⟨same sid other, processors sid old other⟩, ?_⟩
  intro sid below above
  have other : sid ∉ reader e := fun reads => Nat.not_lt.mpr above (created sid reads)
  exact ⟨(same sid other).trans (blank sid above), fresh sid below above⟩

theorem goesOn_step (lawful : json.Lawful) (blank : s.Blank) {e : ServerEvent}
    (created : ∀ sid ∈ reader e, sid < s.nextSession)
    (next : s.step json (Net.config name side) (pid side) e = some t) : GoesOn (· ∈ reader e) s t := by
  have msg1 := (Server.msg1_step lawful blank next).2
  -- the handlers that no input reaches
  have handler : Handles json (name side) "" (fun _ => True) (pid side) s t →
      GoesOn (· ∈ reader e) s t := by
    intro handles
    obtain ⟨touched, moves, _⟩ := handles.moves
    exact goesOn_of_bytes blank created msg1 moves.next moves.streams (fun sid old _ => moves.processors sid old)
      fun sid below above => (moves.fresh sid below above).2
  have alone : Net.stepAlone json name pid side s e = some t → GoesOn (· ∈ reader e) s t :=
    fun next => handler (handles_alone lawful (fun _ => trivial) (fun _ => trivial) next)
  cases e with
  | accept raddr => exact handler (handles_accept lawful (fun _ => trivial) (fun _ => trivial) next).1
  | readAgain sid processor =>
    obtain ⟨_, rfl⟩ := Server.step_readAgain next
    apply goesOn_of_bytes blank created msg1 (Nat.le_refl _)
    · intro other _
      by_cases same : other = sid
      · rw [same, readAgain_self]
        exact List.prefix_rfl
      · rw [readAgain_other processor same]
    · intro other _ notRead
      have different : other ≠ sid := fun same => notRead (same ▸ rfl)
      rw [readAgain_other processor different]
    · exact fun other below above => absurd below (Nat.not_lt.mpr above)
  | received sid header body =>
    obtain ⟨_, result⟩ := Server.received_cases next
    have sent := @dispatchMsg_sent json (Net.config name side) lawful sid header body s
    have kept := @Server.dispatchMsg_carries json (Net.config name side) _ Session.carried_processor
      (fun _ _ _ => rfl) lawful sid header body s
    rcases result with done | ⟨u, raised, rfl⟩
    · rw [done] at sent kept
      apply goesOn_of_bytes blank created msg1 kept.1.ge
      · exact fun other _ => sent.2 other
      · exact fun other _ _ => kept.2 other
      · exact fun other below above => absurd (kept.1 ▸ below) (Nat.not_lt.mpr above)
    · rw [raised] at sent kept
      -- the exception has been caught, and the session is stopped
      obtain ⟨touched, moves, _⟩ :=
        (@handles_readFailed json (name side) "" (fun _ => True) u sid (pid side)).moves
      apply goesOn_of_bytes blank created msg1 (kept.1.symm.le.trans moves.next)
      · exact fun other old => (sent.2 other).trans (moves.streams other (kept.1.symm ▸ old))
      · exact fun other old _ => (moves.processors other (kept.1.symm ▸ old)).trans (kept.2 other)
      · exact fun other below above => (moves.fresh other below (kept.1.symm ▸ above)).2
  | _ => exact alone next

theorem goesOn_exec (lawful : json.Lawful) (blank : s.Blank) (created : sid < s.nextSession)
    {events : List ServerEvent} (ofRead : ∀ e ∈ events, Server.OfRead sid e)
    (executed : exec (Server.step json (Net.config name side) (pid side)) s events = some t) :
    GoesOn (· = sid) s t := by
  induction events generalizing s with
  | nil =>
    cases executed
    exact .refl _ _
  | cons e events inductionHypothesis =>
    obtain ⟨u, first, rest⟩ := exec_cons.mp executed
    rw [List.forall_mem_cons] at ofRead
    have reads : ∀ other ∈ reader e, other = sid := by
      intro other member
      cases e with
      | received caller header body => exact (Option.mem_some.mp member).symm.trans ofRead.1
      | readAgain caller processor => exact (Option.mem_some.mp member).symm.trans ofRead.1
      | _ => cases member
    have goesOn := goesOn_step lawful blank (fun other member => reads other member ▸ created) first
    have later := inductionHypothesis (Server.blank_step lawful blank first)
      (created.trans_le goesOn.next) ofRead.2 rest
    exact (goesOn.mono reads).trans later fun other same => same ▸ created

/-- A part of a stream whose first message is known. -/
theorem parse_first {text more part : List Char} {frame : PTree × Body}
    (read : ∀ rest, parse json (text ++ rest) = (frame :: (parse json rest).1, (parse json rest).2))
    (isPart : part <+: text ++ more) :
    (∃ header, parse json part = ([], some header)) ∨
      ∃ frames waiting, parse json part = (frame :: frames, waiting) := by
  rcases List.prefix_or_prefix_of_prefix isPart (List.prefix_append text more) with shorter | longer
  · obtain ⟨rest, isText⟩ := shorter
    have whole : parse json (part ++ rest) = ([frame], some none) := by
      rw [isText, ← List.append_nil text, read]
      rfl
    obtain ⟨heard, header, parsed, first⟩ := parse_of_prefix whole
    cases heard with
    | nil => exact .inl ⟨header, parsed⟩
    | cons other heard =>
      rw [List.cons_prefix_cons] at first
      exact .inr ⟨heard, _, first.1 ▸ parsed⟩
  · obtain ⟨rest, rfl⟩ := longer
    exact .inr ⟨_, _, read rest⟩

/-- The first block that completes a message makes it the first message of the session, if it passes
`authenticate`; a block that does not is only kept. -/
theorem read_unknown (lawful : json.Lawful) {config : UConfig} (blank : s.Blank)
    (unknown : (s.store.session sid).msg1 = none) {done block : List Char} {frame : PTree × Body}
    (follows : Follows json done (s.store.session sid).processor) (silent : (parse json done).1 = [])
    (first : (∃ header, parse json (done ++ block) = ([], some header)) ∨
      ∃ frames waiting, parse json (done ++ block) = (frame :: frames, waiting))
    (passes : Session.authenticate config (.incoming config frame.1 frame.2 (some sid)) = true)
    (returned : s.read json config sid block = some t) :
    ((parse json (done ++ block)).1 = [] ∧ (t.store.session sid).msg1 = none ∧
        Follows json (done ++ block) (t.store.session sid).processor) ∨
      ((parse json (done ++ block)).1 ≠ [] ∧
        (t.store.session sid).msg1 = some (.incoming config frame.1 frame.2 (some sid))) := by
  -- the frames of the block are those of the stream, as there has been none before
  have frames : Server.framesOf json block (s.store.session sid).processor = parse json (done ++ block) := by
    have before : parse json done = ([], some (s.store.session sid).processor.header) :=
      Prod.ext silent follows.header
    rw [parse_append done block before, Server.framesOf, follows.line]
    rfl
  rcases first with ⟨header, parsed⟩ | ⟨rest, waiting, parsed⟩
  · left
    rw [parsed] at frames
    simp only [Server.read, processNewInput_eq_deliver] at returned
    split at returned
    · have scanned : scan json.readJson (s.store.session sid).processor.header
          (splitLines (s.store.session sid).processor.acculine.cmd block).1 = ([], some header) := frames
      rw [scanned, follows.line] at returned
      cases returned
      rw [readAgain_self]
      exact ⟨by rw [parsed], unknown, by rw [parsed]; rfl, by rw [partialLine_append]; rfl⟩
    · cases returned
  · right
    refine ⟨by simp [parsed], ?_⟩
    obtain ⟨events, run⟩ := @Server.read_exec json config lawful 0 sid block s t returned
    obtain ⟨_, begins, executed⟩ := run
    rw [frames, parsed] at begins
    cases events with
    | nil => cases begins frame rfl
    | cons e events =>
      cases begins frame rfl
      obtain ⟨u, received, later⟩ := exec_cons.mp executed
      have created := (Server.received_cases received).1
      obtain ⟨count, msg1⟩ := Server.msg1_step lawful blank received
      have known : (u.store.session sid).msg1 = some (.incoming config frame.1 frame.2 (some sid)) := by
        rw [msg1]
        simp [Server.msg1After, Server.verdict, Session.authenticated, unknown, passes]
      exact (Server.evolves_exec lawful later).msg1 sid (created.trans_le count) _ known

end OneServer

/-! ## Two servers -/

/-- What a session has heard: before it is authenticated no message of the other server, and then first
of all the introduction of its peer, which has not refused the connection. -/
structure Told (json : JsonCodec) (name : Side → String) (pid : Side → Nat) (m : Meeting) (side : Side)
    (sid : SessionId) (heard : List Char) (ss : Session) : Prop where
  unknown : ss.msg1 = none → Follows json heard ss.processor ∧ (parse json heard).1 = []
  known : ∀ msg, ss.msg1 = some msg → ∃ peer, m.net.peer side sid = some peer ∧
    peer ∉ m.refused side.other ∧ Introduces json name pid m.net side sid peer msg

/-- What holds of the sessions of two servers. -/
structure Acquainted (json : JsonCodec) (name : Side → String) (pid : Side → Nat) (m : Meeting) : Prop where
  wired : Wired m.net
  begins : ∀ side, Begins json (Net.config name side) (pid side) (· ∈ m.refused side) (m.net.server side)
  strangers : ∀ side, ∀ sid ∈ m.strangers side,
    sid < (m.net.server side).nextSession ∧ m.net.peer side sid = none
  told : ∀ side, ∀ sid < (m.net.server side).nextSession, sid ∉ m.strangers side →
    Told json name pid m side sid (m.net.heard side sid) (m.net.session side sid)

/-- The sessions of a connection have heard from nobody else. -/
theorem Acquainted.not_stranger {json : JsonCodec} {name : Side → String} {pid : Side → Nat} {m : Meeting}
    (acquainted : Acquainted json name pid m) {side : Side} {sid peer : SessionId}
    (connected : m.net.peer side sid = some peer) : sid ∉ m.strangers side := by
  intro stranger
  rw [(acquainted.strangers side sid stranger).2] at connected
  cases connected

/-- One of the servers has done something, and its streams have grown. -/
structure Proceeds (side : Side) (m after : Meeting) : Prop where
  peer : after.net.peer = m.net.peer
  server : after.net.server side.other = m.net.server side.other
  consumed : after.net.consumed side.other = m.net.consumed side.other
  refused : after.refused side.other = m.refused side.other
  strangers : after.strangers side.other = m.strangers side.other
  next : (m.net.server side).nextSession ≤ (after.net.server side).nextSession
  streams : ∀ sid < (m.net.server side).nextSession,
    (m.net.session side sid).sent <+: (after.net.session side sid).sent
  verdicts : ∀ sid < (m.net.server side).nextSession, sid ∈ after.refused side → sid ∈ m.refused side

section TwoServers

variable {json : JsonCodec} {name : Side → String} {pid : Side → Nat} {m after : Meeting} {side : Side}
  {sid : SessionId}

theorem Proceeds.wired (proceeds : Proceeds side m after) (wired : Wired m.net)
    (bounds : ∀ sid, after.net.consumed side sid ≤ (m.net.incoming side sid).length) : Wired after.net where
  peers := by
    intro at' sid peer connected
    rw [proceeds.peer] at connected ⊢
    obtain ⟨created, back⟩ := wired.peers connected
    refine ⟨?_, back⟩
    rcases side.eq_or_eq_other at' with rfl | rfl
    · exact created.trans_le proceeds.next
    · rwa [proceeds.server]
  bounds at' sid := by
    rcases side.eq_or_eq_other at' with rfl | rfl
    · rw [incoming_of_server proceeds.peer proceeds.server]
      exact bounds sid
    · rw [proceeds.consumed]
      exact (wired.bounds side.other sid).trans
        (wired.heard_of_streams proceeds.peer proceeds.consumed proceeds.streams sid).1.length_le

/-- The introduction of a session stays the first text of its stream. -/
theorem Introduces.of_stream {net grown : Net} {peer : SessionId} {msg : Msg}
    (introduces : Introduces json name pid net side sid peer msg)
    (stream : (net.session side.other peer).sent <+: (grown.session side.other peer).sent) :
    Introduces json name pid grown side sid peer msg := by
  obtain ⟨text, frame, first, rest⟩ := introduces
  obtain ⟨more, same⟩ := stream
  refine ⟨text, frame, ?_, rest⟩
  rw [← same, List.head?_append, first]
  rfl

/-- It is enough to look at the server that has done something. -/
theorem Acquainted.proceed (acquainted : Acquainted json name pid m) (proceeds : Proceeds side m after)
    (bounds : ∀ sid, after.net.consumed side sid ≤ (m.net.incoming side sid).length)
    (begins : Begins json (Net.config name side) (pid side) (· ∈ after.refused side) (after.net.server side))
    (strangers : ∀ sid ∈ after.strangers side,
      sid < (after.net.server side).nextSession ∧ m.net.peer side sid = none)
    (told : ∀ sid < (after.net.server side).nextSession, sid ∉ after.strangers side →
      Told json name pid m side sid (after.net.heard side sid) (after.net.session side sid)) :
    Acquainted json name pid after where
  wired := proceeds.wired acquainted.wired bounds
  begins at' := by
    rcases side.eq_or_eq_other at' with rfl | rfl
    · exact begins
    · rw [proceeds.server, proceeds.refused]
      exact acquainted.begins side.other
  strangers at' sid stranger := by
    rw [proceeds.peer]
    rcases side.eq_or_eq_other at' with rfl | rfl
    · exact strangers sid stranger
    · rw [proceeds.strangers] at stranger
      rw [proceeds.server]
      exact acquainted.strangers side.other sid stranger
  told at' sid created other := by
    rcases side.eq_or_eq_other at' with rfl | rfl
    · obtain ⟨unknown, known⟩ := told sid created other
      refine ⟨unknown, ?_⟩
      intro msg isKnown
      rw [proceeds.peer, proceeds.refused]
      obtain ⟨peer, connected, admitted, introduces⟩ := known msg isKnown
      refine ⟨peer, connected, admitted, introduces.of_stream ?_⟩
      rw [Net.session, Net.session, proceeds.server]
    -- the other server has rested, and the streams that it reads have grown
    · rw [proceeds.server] at created
      rw [proceeds.strangers] at other
      obtain ⟨unknown, known⟩ := acquainted.told side.other sid created other
      rw [Net.session, proceeds.server]
      rw [(acquainted.wired.heard_of_streams proceeds.peer proceeds.consumed proceeds.streams sid).2]
      refine ⟨unknown, ?_⟩
      intro msg isKnown
      rw [proceeds.peer]
      obtain ⟨peer, connected, admitted, introduces⟩ := known msg isKnown
      have back := (acquainted.wired.peers connected).2
      have opposite := (acquainted.wired.peers back).1
      rw [Side.other_other] at admitted opposite
      refine ⟨peer, connected, ?_, introduces.of_stream ?_⟩
      · rw [Side.other_other]
        exact fun refused => admitted (proceeds.verdicts peer opposite refused)
      · rw [Side.other_other]
        exact proceeds.streams peer opposite

/-- A session that has not read anything in a step is as it was, or it is new. -/
theorem Acquainted.rested (acquainted : Acquainted json name pid m) {reads : SessionId → Prop} {t : Server}
    (goesOn : GoesOn reads (m.net.server side) t) (created : sid < t.nextSession) (rests : ¬ reads sid)
    (other : sid ∉ m.strangers side) :
    Told json name pid m side sid (m.net.heard side sid) (t.store.session sid) := by
  by_cases old : sid < (m.net.server side).nextSession
  · obtain ⟨msg1, processor⟩ := goesOn.unread sid old rests
    obtain ⟨unknown, known⟩ := acquainted.told side sid old other
    refine ⟨?_, ?_⟩
    · rw [msg1, processor]
      exact unknown
    · rw [msg1]
      exact known
  · have new := Nat.le_of_not_lt old
    obtain ⟨msg1, processor⟩ := goesOn.fresh sid created new
    refine ⟨?_, ?_⟩
    · rw [processor, (acquainted.wired.absent new).2]
      exact fun _ => ⟨follows_nil, rfl⟩
    · rw [msg1]
      exact nofun

/-! ## The handlers of one server -/

theorem refusals_eq (s : Server) (refused : List SessionId) (e : ServerEvent) :
    refusedAfter s (· ∈ refused) e = (· ∈ refusals s refused e) := by
  funext sid
  apply propext
  cases e with
  | accept raddr =>
    by_cases tooMany : s.refuses raddr
    · simp [refusedAfter, refusals, tooMany]
    · simp [refusedAfter, refusals, tooMany]
  | _ => exact Iff.rfl

theorem acquainted_handled (lawful : json.Lawful) (acquainted : Acquainted json name pid m) {e : ServerEvent}
    {server : Server}
    (alone : ∀ sid ∈ reader e, sid < (m.net.server side).nextSession ∧ m.net.peer side sid = none)
    (next : (m.net.server side).step json (Net.config name side) (pid side) e = some server) :
    Acquainted json name pid (m.handled side e server) := by
  have goesOn := goesOn_step lawful (acquainted.begins side).tabled.blank
    (fun sid reads => (alone sid reads).1) next
  have begins := begins_step lawful (acquainted.begins side) next
  rw [refusals_eq] at begins
  have self : (m.handled side e server).net.server side = server := setServer_self server
  have refused : (m.handled side e server).refused side = refusals (m.net.server side) (m.refused side) e := by
    simp [Meeting.handled]
  have strangers : (m.handled side e server).strangers side = (reader e).toList ++ m.strangers side := by
    simp [Meeting.handled]
  have heard : ∀ sid, (m.handled side e server).net.heard side sid = m.net.heard side sid := by
    intro sid
    have arrived := @incoming_of_server m.net (m.handled side e server).net side rfl (setServer_other server)
    simp only [Net.heard, arrived]
    rfl
  have proceeds : Proceeds side m (m.handled side e server) := by
    refine ⟨rfl, setServer_other server, rfl, ?_, ?_, ?_, ?_, ?_⟩
    · simp [Meeting.handled]
    · simp [Meeting.handled]
    · rw [self]
      exact goesOn.next
    · simpa only [Net.session, self] using goesOn.streams
    · intro sid old
      rw [refused]
      cases e with
      | accept raddr =>
        simp only [refusals]
        split
        · intro member
          rcases List.mem_append.mp member with before | new
          · exact before
          · exact absurd old (Nat.not_lt.mpr (List.mem_singleton.mp new).ge)
        · exact id
      | _ => exact id
  apply acquainted.proceed proceeds
  · exact acquainted.wired.bounds side
  · rw [self, refused]
    exact begins
  · intro sid stranger
    rw [self]
    simp only [strangers, List.mem_append, Option.mem_toList] at stranger
    rcases stranger with reads | before
    · exact ⟨(alone sid reads).1.trans_le goesOn.next, (alone sid reads).2⟩
    · obtain ⟨old, free⟩ := acquainted.strangers side sid before
      exact ⟨old.trans_le goesOn.next, free⟩
  · intro sid created other
    rw [self] at created
    simp only [strangers, List.mem_append, Option.mem_toList, not_or] at other
    rw [heard, Net.session, self]
    exact acquainted.rested goesOn created other.1 other.2

/-! ## A new connection -/

theorem acquainted_link (acquainted : Acquainted json name pid m) {new : SessionId}
    (created : new < (m.net.server side).nextSession) (alone : m.net.peer side new = none)
    (quiet : new ∉ m.strangers side)
    (opened : sid < (m.net.server side.other).nextSession) (free : m.net.peer side.other sid = none)
    (silent : sid ∉ m.strangers side.other) :
    Acquainted json name pid { m with net := m.net.link side new sid } where
  wired := wired_link acquainted.wired created alone opened free
  begins := acquainted.begins
  strangers at' x stranger := by
    obtain ⟨old, notConnected⟩ := acquainted.strangers at' x stranger
    refine ⟨old, ?_⟩
    rcases side.eq_or_eq_other at' with rfl | rfl
    · have different : x ≠ new := fun same => quiet (same ▸ stranger)
      rw [link_peer_self, Function.update_of_ne different]
      exact notConnected
    · have different : x ≠ sid := fun same => silent (same ▸ stranger)
      rw [link_peer_other, Function.update_of_ne different]
      exact notConnected
  told at' x old other := by
    obtain ⟨unknown, known⟩ := acquainted.told at' x old other
    rw [(link_heard acquainted.wired alone free at' x).2]
    refine ⟨unknown, ?_⟩
    intro msg isKnown
    obtain ⟨peer, connected, admitted, introduces⟩ := known msg isKnown
    refine ⟨peer, ?_, admitted, introduces⟩
    rcases link_peer alone free at' x with same | notConnected
    · exact same.trans connected
    -- a session without a connection is not authenticated
    · rw [notConnected] at connected
      cases connected

/-! ## A block of input -/

/-- The text of a goodbye is one line. -/
theorem bye_line (lawful : json.Lawful) {config : UConfig} {reason : String} {text : List Char}
    (encoded : (Notice.bye reason).text json config = some text) :
    ∃ line, text = line ++ ['\n'] ∧ '\n' ∉ line := by
  obtain ⟨line, written, oneLine, _⟩ :=
    lawful.inverts _ (embeddedBody_writable config "bye" "bye" reason)
  have whole : (Notice.bye reason).text json config = some (line ++ ['\n']) := by
    simp [Notice.text, Notice.msg, Notice.cname, Notice.body, outgoing_service, Msg.moveToStr,
      Msg.embedBody, written]
  exact ⟨line, Option.some.inj (encoded.symm.trans whole), oneLine⟩

/-- A block with the end of the only line is the last one. -/
theorem last_block {line done block rest : List Char} (oneLine : '\n' ∉ line)
    (whole : line ++ ['\n'] = done ++ block ++ rest) (ends : '\n' ∈ block) :
    done ++ block = line ++ ['\n'] := by
  rcases List.eq_nil_or_concat rest with rfl | ⟨front, last, rfl⟩
  · rw [whole, List.append_nil]
  · rw [List.concat_eq_append, ← List.append_assoc] at whole
    have inside := (List.append_inj' whole rfl).1
    exact absurd (by simp [inside, ends]) oneLine

/-- A block without the end of a line completes no message. -/
theorem parse_unended {done block : List Char} {processor : InputProcessor} (follows : Follows json done processor)
    (silent : (parse json done).1 = []) (unended : '\n' ∉ block) : (parse json (done ++ block)).1 = [] := by
  have before : parse json done = ([], some processor.header) := Prod.ext silent follows.header
  rw [parse_append done block before, splitLines_of_notMem unended]
  cases processor.header <;> rfl

/-- What a session that has said something has said first, and how it is read at the other end. -/
theorem first_text (lawful : json.Lawful) {config : UConfig} {pid : Nat} {refused : Prop} {ss : Session}
    (opening : Opening json config pid refused ss) (spoken : ss.sent ≠ []) :
    ∃ (notice : Notice) (text : List Char) (more : List (List Char)) (frame : PTree × Body),
      ss.sent = text :: more ∧ notice.text json config = some text ∧
      notice.Frame json config frame ∧
      (∀ rest, parse json (text ++ rest) = (frame :: (parse json rest).1, (parse json rest).2)) ∧
      ((¬ refused ∧ notice = .auth pid) ∨ (refused ∧ (∃ reason, notice = .bye reason) ∧ more = [])) := by
  have read : ∀ {notice : Notice} {text : List Char}, notice.text json config = some text →
      ∃ frame, notice.Frame json config frame ∧
        ∀ rest, parse json (text ++ rest) = (frame :: (parse json rest).1, (parse json rest).2) := by
    intro notice text encoded
    obtain ⟨text', frame, encoded', isFrame, parsed⟩ := @Notice.text_eq json config lawful notice
    obtain rfl : text' = text := Option.some.inj (encoded'.symm.trans encoded)
    exact ⟨frame, isFrame, fun rest => (parsed rest).1⟩
  cases opening with
  | silent _ unopened => exact absurd unopened.sent spoken
  | @goodbye isRefused bye encoded sent =>
    obtain ⟨frame, isFrame, parsed⟩ := read encoded
    exact ⟨_, bye, [], frame, sent, encoded, isFrame, parsed, .inr ⟨isRefused, ⟨_, rfl⟩, rfl⟩⟩
  | @started admitted auth encoded first =>
    obtain ⟨more, sent⟩ := List.head?_eq_some_iff.mp first
    obtain ⟨frame, isFrame, parsed⟩ := read encoded
    exact ⟨_, auth, more, frame, sent, encoded, isFrame, parsed, .inl ⟨admitted, rfl⟩⟩

/-- One call of the read handler for a connection between the two servers. -/
structure Hears (json : JsonCodec) (name : Side → String) (pid : Side → Nat) (m : Meeting) (side : Side)
    (sid peer : SessionId) (block : List Char) (notice : Notice) (text : List Char)
    (more : List (List Char)) (frame : PTree × Body) (t : Server) : Prop where
  connected : m.net.peer side sid = some peer
  created : sid < (m.net.server side).nextSession
  returned : (m.net.server side).read json (Net.config name side) sid block = some t
  stream : (m.net.session side.other peer).sent = text :: more
  whole : ∃ rest, text ++ more.flatten = m.net.heard side sid ++ block ++ rest
  encoded : notice.text json (Net.config name side.other) = some text
  parsed : parse json text = ([frame], some none)
  kind : (peer ∉ m.refused side.other ∧ notice = .auth (pid side.other)) ∨
    (peer ∈ m.refused side.other ∧ (∃ reason, notice = .bye reason) ∧ more = [])
  outcome : (m.net.session side sid).msg1 = none →
    ((parse json (m.net.heard side sid ++ block)).1 = [] ∧ (t.store.session sid).msg1 = none ∧
        Follows json (m.net.heard side sid ++ block) (t.store.session sid).processor) ∨
      ((parse json (m.net.heard side sid ++ block)).1 ≠ [] ∧
        (t.store.session sid).msg1 = some (.incoming (Net.config name side) frame.1 frame.2 (some sid)))

/-- The userver of another node passes `authenticate`, whatever it says. -/
theorem notice_passes (different : name side.other ≠ name side) (named : name side.other ≠ "")
    {notice : Notice} {frame : PTree × Body}
    (isFrame : notice.Frame json (Net.config name side.other) frame) (origin : Option SessionId) :
    Session.authenticate (Net.config name side) (.incoming (Net.config name side) frame.1 frame.2 origin) =
      true := by
  have sender : (Msg.incoming (Net.config name side) frame.1 frame.2 origin).from =
      ⟨"userver", name side.other⟩ := (incoming_notice isFrame origin).1
  apply Session.authenticate_userver.mpr
  rw [sender]
  exact ⟨by simp, named, by simp [different]⟩

theorem hears_read (lawful : json.Lawful) (different : name side.other ≠ name side)
    (named : name side.other ≠ "") (acquainted : Acquainted json name pid m) {length : Nat} {read : Net}
    (next : m.net.read json name side sid length = some read) :
    ∃ peer notice text more frame t,
      Hears json name pid m side sid peer ((m.net.inFlight side sid).take length) notice text more frame t ∧
        read = (m.net.setServer side t).consume side sid ((m.net.inFlight side sid).take length).length := by
  obtain ⟨peer, t, connected, opposite, created, stream, returned, isRead⟩ := read_cases acquainted.wired next
  have spoken : (m.net.session side.other peer).sent ≠ [] := by
    intro nothing
    simp only [Net.read] at next
    split at next
    · cases next
    next block =>
      apply block
      simp [Net.inFlight, Net.incoming, connected, Net.stream, nothing]
  obtain ⟨notice, text, more, frame, sent, encoded, isFrame, parsed, kind⟩ :=
    first_text lawful ((acquainted.begins side.other).opening peer opposite) spoken
  rw [Net.session, sent, List.flatten_cons] at stream
  have whole : parse json text = ([frame], some none) := by
    rw [← List.append_nil text, parsed]
    rfl
  refine ⟨peer, notice, text, more, frame, t,
    ⟨connected, created, returned, sent, ⟨_, stream⟩, encoded, whole, kind, ?_⟩, isRead⟩
  intro unknown
  obtain ⟨follows, silent⟩ :=
    (acquainted.told side sid created (acquainted.not_stranger connected)).unknown unknown
  apply read_unknown lawful (acquainted.begins side).tabled.blank unknown follows silent _
    (notice_passes different named isFrame (some sid)) returned
  exact parse_first parsed ⟨_, stream.symm⟩

/-- The block may have brought the introduction of the peer.  It has not brought a goodbye instead. -/
theorem Hears.told (acquainted : Acquainted json name pid m) {peer : SessionId} {block text : List Char}
    {notice : Notice} {more : List (List Char)} {frame : PTree × Body} {t : Server}
    (hears : Hears json name pid m side sid peer block notice text more frame t)
    (evolves : (m.net.server side).Evolves t) (unended : peer ∈ m.refused side.other → '\n' ∉ block) :
    Told json name pid m side sid (m.net.heard side sid ++ block) (t.store.session sid) := by
  obtain ⟨unknown, known⟩ := acquainted.told side sid hears.created (acquainted.not_stranger hears.connected)
  cases first : (m.net.session side sid).msg1 with
  | some msg1 =>
    have stays := evolves.msg1 sid hears.created msg1 first
    refine ⟨?_, ?_⟩
    · rw [stays]
      exact nofun
    · rw [stays, ← first]
      exact known
  | none =>
    obtain ⟨follows, silent⟩ := unknown first
    rcases hears.outcome first with ⟨nothing, notKnown, further⟩ | ⟨complete, isKnown⟩
    · refine ⟨fun _ => ⟨further, nothing⟩, ?_⟩
      rw [notKnown]
      exact nofun
    · refine ⟨?_, ?_⟩
      · rw [isKnown]
        exact nofun
      intro msg same
      rw [isKnown] at same
      rcases hears.kind with ⟨admitted, rfl⟩ | ⟨refused, _⟩
      · refine ⟨peer, hears.connected, admitted, text, frame, ?_, hears.encoded, hears.parsed,
          (Option.some.inj same).symm⟩
        rw [hears.stream]
        rfl
      · exact absurd (parse_unended follows silent (unended refused)) complete

theorem acquainted_read (lawful : json.Lawful) (different : name side.other ≠ name side)
    (named : name side.other ≠ "") (acquainted : Acquainted json name pid m) {length : Nat} {read : Net}
    (next : m.net.read json name side sid length = some read) (unheard : Unheard m (.read side sid length)) :
    Acquainted json name pid { m with net := read } := by
  obtain ⟨peer, notice, text, more, frame, t, hears, isRead⟩ :=
    hears_read lawful different named acquainted next
  obtain ⟨events, run⟩ := @Server.read_exec json _ lawful (pid side) sid _ _ t hears.returned
  have goesOn := goesOn_exec lawful (acquainted.begins side).tabled.blank hears.created run.ofRead run.executed
  have evolves := Server.evolves_exec lawful run.executed
  have begins := @begins_read json _ (pid side) _ _ t sid lawful (acquainted.begins side) _ hears.returned
  obtain ⟨further, elsewhere⟩ := heard_read read isRead
  have self : read.server side = t := by
    rw [isRead]
    exact setServer_self t
  have proceeds : Proceeds side m { m with net := read } := by
    refine ⟨by rw [isRead]; rfl, ?_, ?_, rfl, rfl, ?_, ?_, fun _ _ => id⟩
    · rw [isRead]
      exact setServer_other t
    · simp [isRead, Net.consume, Net.setServer]
    · exact self.symm ▸ goesOn.next
    · simpa only [Net.session, self] using goesOn.streams
  apply acquainted.proceed proceeds
  · rw [isRead]
    exact consumed_read acquainted.wired t length
  · exact self.symm ▸ begins
  · intro x stranger
    obtain ⟨old, free⟩ := acquainted.strangers side x stranger
    exact ⟨old.trans_le proceeds.next, free⟩
  · intro x created other
    have created : x < t.nextSession := self ▸ created
    show Told json name pid m side x (read.heard side x) (read.session side x)
    rw [Net.session, self]
    by_cases same : x = sid
    · subst same
      rw [further]
      exact hears.told acquainted evolves (unheard peer hears.connected)
    · rw [elsewhere x same]
      exact acquainted.rested goesOn created same other

/-! ## Runs -/

theorem acquainted_initial (now : Side → Nat) (remotes : Side → List String) :
    Acquainted json name pid (.initial name now remotes) where
  wired := ⟨nofun, fun _ _ => Nat.le_refl _⟩
  begins side := by
    have nobody : (· ∈ (Meeting.initial name now remotes).refused side) = fun _ => False := by
      funext sid
      simp [Meeting.initial]
    rw [nobody]
    exact begins_initial (now side) (remotes side)
  strangers _ _ := nofun
  told _ _ := nofun

theorem Acquainted.refusal (acquainted : Acquainted json name pid m) : Refusal json name pid m := by
  refine ⟨?_, ?_⟩
  · intro side sid peer connected refused
    have created := (acquainted.wired.peers connected).1
    have unknown : (m.net.session side sid).msg1 = none := by
      cases isKnown : (m.net.session side sid).msg1 with
      | none => rfl
      | some msg =>
        obtain ⟨other, connected', admitted, _⟩ :=
          (acquainted.told side sid created (acquainted.not_stranger connected)).known msg isKnown
        rw [connected, Option.some.injEq] at connected'
        exact absurd (connected' ▸ refused) admitted
    refine ⟨by rw [Session.authenticated, unknown]; rfl, ?_⟩
    exact ((acquainted.begins side).tabled.absent unknown).channels
  · intro side sid peer msg connected isKnown
    have created := (acquainted.wired.peers connected).1
    obtain ⟨other, connected', _, introduces⟩ :=
      (acquainted.told side sid created (acquainted.not_stranger connected)).known msg isKnown
    rw [connected, Option.some.injEq] at connected'
    exact connected' ▸ introduces

theorem acquainted_step {e : MeetingEvent} (lawful : json.Lawful)
    (different : ∀ side : Side, name side.other ≠ name side) (named : ∀ side, name side ≠ "")
    (acquainted : Acquainted json name pid m) (next : m.step json name pid e = some after)
    (unheard : Unheard m e) : Acquainted json name pid after := by
  cases e with
  | alone side e =>
    simp only [Meeting.step] at next
    split at next
    next alone =>
      obtain ⟨server, stepped, rfl⟩ := Option.map_eq_some_iff.mp next
      exact acquainted_handled lawful acquainted alone stepped
    next => cases next
  | accept side sid raddr =>
    simp only [Meeting.step] at next
    split at next
    · cases next
    next silent =>
      obtain ⟨net, linked, rfl⟩ := Option.map_eq_some_iff.mp next
      simp only [Net.accept] at linked
      split at linked
      next opened =>
        obtain ⟨accepted, returned, rfl⟩ := Option.map_eq_some_iff.mp linked
        have self : ((m.net.setServer side accepted).link side (m.net.server side).nextSession sid).server side =
          accepted := setServer_self accepted
        have before : Acquainted json name pid (m.handled side (.accept raddr) accepted) :=
          acquainted_handled lawful acquainted (fun _ reads => absurd reads (Option.not_mem_none _)) returned
        rw [self]
        have alone := (acquainted.wired.absent (Nat.le_refl (m.net.server side).nextSession)).1
        have count := (@handles_accept json (name side) "" (fun _ => True) _ accepted (pid side) lawful
          (fun _ => trivial) (fun _ => trivial) raddr returned).2
        apply @acquainted_link json name pid _ side sid before (m.net.server side).nextSession
        · show _ < ((m.net.setServer side accepted).server side).nextSession
          rw [setServer_self, count]
          exact Nat.lt_succ_self _
        · exact alone
        · intro stranger
          have stranger : (m.net.server side).nextSession ∈ m.strangers side := by
            simpa [Meeting.handled, reader] using stranger
          exact absurd (acquainted.strangers side _ stranger).1 (Nat.lt_irrefl _)
        · show sid < ((m.net.setServer side accepted).server side.other).nextSession
          rw [setServer_other]
          exact opened.1
        · exact opened.2.2
        · simpa [Meeting.handled] using silent
      next => cases linked
  | read side sid length =>
    obtain ⟨net, read, rfl⟩ := Option.map_eq_some_iff.mp next
    exact acquainted_read lawful (different side) (named side.other) acquainted read unheard

/-- Once the goodbye has been read, the session is authenticated by it. -/
theorem goodbye_authenticates {e : MeetingEvent} (lawful : json.Lawful)
    (different : ∀ side : Side, name side.other ≠ name side) (named : ∀ side, name side ≠ "")
    (acquainted : Acquainted json name pid m) (next : m.step json name pid e = some after)
    (heard : ¬ Unheard m e) : ¬ Refusal json name pid after := by
  cases e with
  | alone => exact absurd trivial heard
  | accept => exact absurd trivial heard
  | read side sid length =>
    simp only [Unheard, not_forall, not_not] at heard
    obtain ⟨peer, connected, isRefused, ends⟩ := heard
    obtain ⟨read, isNext, rfl⟩ := Option.map_eq_some_iff.mp next
    obtain ⟨other, notice, text, more, frame, t, hears, rfl⟩ :=
      hears_read lawful (different side) (named side.other) acquainted isNext
    obtain rfl : other = peer := Option.some.inj (hears.connected.symm.trans connected)
    have unknown : (m.net.session side sid).msg1 = none := by
      have before := (acquainted.refusal.refused side sid other connected isRefused).1
      simpa [Session.authenticated] using before
    -- the block ends with the only line of the stream
    have complete : (parse json (m.net.heard side sid ++ (m.net.inFlight side sid).take length)).1 ≠ [] := by
      rcases hears.kind with ⟨admitted, _⟩ | ⟨_, ⟨reason, rfl⟩, rfl⟩
      · exact absurd isRefused admitted
      · obtain ⟨line, rfl, oneLine⟩ := bye_line lawful hears.encoded
        obtain ⟨rest, whole⟩ := hears.whole
        rw [List.flatten_nil, List.append_nil] at whole
        rw [last_block oneLine whole ends, hears.parsed]
        simp
    intro refusal
    have silent := (refusal.refused side sid other connected isRefused).1
    rcases hears.outcome unknown with ⟨nothing, _⟩ | ⟨_, known⟩
    · exact complete nothing
    · have authenticated : (t.store.session sid).authenticated = true := by
        rw [Session.authenticated, known]
        rfl
      have same : ((m.net.setServer side t).consume side sid
          ((m.net.inFlight side sid).take length).length).server side = t := setServer_self t
      rw [Net.session, same, authenticated] at silent
      cases silent

/-- Two userver nodes, connected to each other and to anybody else: in a run of theirs refused connections
are never authenticated, and others only by the introduction of the peer, exactly if no goodbye of a
refused connection is read to the end of its line. -/
theorem refusal_runs_iff (lawful : json.Lawful) (different : name .lower ≠ name .boss)
    (named : ∀ side, name side ≠ "") (now : Side → Nat) (remotes : Side → List String)
    (events : List MeetingEvent) :
    Always (Meeting.step json name pid) (Refusal json name pid) (.initial name now remotes) events ↔
      Meets (Meeting.step json name pid) Unheard (.initial name now remotes) events := by
  have different : ∀ side : Side, name side.other ≠ name side := by
    intro side
    cases side with
    | lower => exact different.symm
    | boss => exact different
  apply @always_iff_meets _ _ _ (Acquainted json name pid)
  · exact Acquainted.refusal
  · exact acquainted_step lawful different named
  · exact goodbye_authenticates lawful different named
  · exact acquainted_initial now remotes

end TwoServers

/-- The names under which `alpha` finds `beta`, with an address each. -/
def namesOfBeta : List (String × String) :=
  [("beta", "10.0.0.2"), ("beta-2", "10.0.0.3"), ("beta-3", "10.0.0.4"), ("beta-4", "10.0.0.5"),
    ("beta-5", "10.0.0.6"), ("beta-6", "10.0.0.7")]

def alphaStarts : Meeting :=
  .initial alphaBeta (fun _ => 0) fun
    | .lower => namesOfBeta.map (·.1)
    | .boss => []

/-- With two sessions for each name, `alpha` opens more connections than `beta` admits for one address.
The eleventh is refused, while at the end of `alpha` the connect succeeds. -/
def elevenConnections : List MeetingEvent :=
  [.alone .lower .fire, .alone .lower (.onTimer 0)] ++
    namesOfBeta.map (fun (_, ip) => .alone .lower (.resolved 0 (some ip))) ++
    (List.range 11).map (fun sid => .accept .boss sid "10.0.0.1") ++
    [.alone .lower (.connectHandler 10 true)]

/-- As long as only a part of the goodbye has arrived, the session waits. -/
theorem refusal_runs_part_of_goodbye :
    ∃ m, exec (Meeting.step Json.compactJson alphaBeta fun _ => 7) alphaStarts
        (elevenConnections ++ [.read .lower 10 8]) = some m ∧
      m.net.peer .lower 10 = some 10 ∧ 10 ∈ m.refused .boss ∧
      (m.net.session .lower 10).authenticated = false ∧ ∀ node, ¬ (m.net.server .lower).holds node 10 := by
  have meets : Meets (Meeting.step Json.compactJson alphaBeta fun _ => 7) Unheard alphaStarts
      (elevenConnections ++ [.read .lower 10 8]) := by
    rw [meets_append]
    constructor
    · apply meets_of_all
      intro e member m
      cases e with
      | alone => trivial
      | accept => trivial
      | read => simp [elevenConnections] at member
    · intro m executed after _
      refine ⟨?_, trivial⟩
      have unended : (exec (Meeting.step Json.compactJson alphaBeta fun _ => 7) alphaStarts
          elevenConnections).map (fun m => decide ('\n' ∉ (m.net.inFlight .lower 10).take 8)) =
            some true := by
        decide +kernel
      rw [executed] at unended
      have unended : decide ('\n' ∉ (m.net.inFlight .lower 10).take 8) = true := Option.some.inj unended
      exact fun _ _ _ => of_decide_eq_true unended
  have reached : (exec (Meeting.step Json.compactJson alphaBeta fun _ => 7) alphaStarts
      (elevenConnections ++ [.read .lower 10 8])).map (fun m =>
        decide (m.net.peer .lower 10 = some 10 ∧ 10 ∈ m.refused .boss)) = some true := by
    decide +kernel
  obtain ⟨m, executed, decided⟩ := Option.map_eq_some_iff.mp reached
  obtain ⟨connected, refused⟩ := of_decide_eq_true decided
  have refusal : Refusal Json.compactJson alphaBeta (fun _ => 7) m :=
    ((refusal_runs_iff Json.compactJson_lawful (by decide) (fun side => by cases side <;> decide) _ _ _).mpr
      meets).last executed
  exact ⟨m, executed, connected, refused, refusal.refused .lower 10 10 connected refused⟩

/-- The whole goodbye authenticates the session of the connection that has been refused. -/
theorem goodbye_of_refused_connection_authenticates :
    ¬ Always (Meeting.step Json.compactJson alphaBeta fun _ => 7)
      (Refusal Json.compactJson alphaBeta fun _ => 7) alphaStarts
      (elevenConnections ++ [.read .lower 10 1024]) := by
  intro always
  have reached : (exec (Meeting.step Json.compactJson alphaBeta fun _ => 7) alphaStarts
      (elevenConnections ++ [.read .lower 10 1024])).map (fun m =>
        decide (m.net.peer .lower 10 = some 10 ∧ 10 ∈ m.refused .boss ∧
          (m.net.session .lower 10).authenticated = true)) = some true := by
    decide +kernel
  obtain ⟨m, executed, decided⟩ := Option.map_eq_some_iff.mp reached
  obtain ⟨connected, refused, authenticated⟩ := of_decide_eq_true decided
  have silent := ((always.last executed).refused .lower 10 10 connected refused).1
  rw [authenticated] at silent
  cases silent

end Uzel.Verified.RefusedConnection
