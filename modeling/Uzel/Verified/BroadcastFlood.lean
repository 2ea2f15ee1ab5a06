import Uzel.Verified.Delivery

/-! # A broadcast message that is delivered comes back

`handleBroadcastMsg` sends to every channel, also to the channel of the node that the message has come
from.  So the first server that receives a broadcast message from another one sends it back, and
`broadcast_single_while_undelivered` says that nothing else goes wrong: every server sends the message at most
once to each channel, and never back, as long as no copy of it is delivered.
-/

namespace Uzel.Verified.BroadcastFlood

open Foundation Protocol Delivery

/-! ## What a server sends to its channels -/

/-- The texts of the messages that the channel to a node has taken. -/
def accepted (s : Server) (node : String) : List (List Char) :=
  ((s.nodeToSession.lookup node).map fun remote => remote.accepted.map (·.rawmsg)).getD []

section OneServer

variable {json : JsonCodec} {config : UConfig} {s t : Server} {msg : Msg}

theorem accepted_setRemote (node other : String) (channel : Remote × Sessions) :
    accepted (s.setRemote node channel) other =
      if other = node then channel.1.accepted.map (·.rawmsg) else accepted s other := by
  rw [accepted, Server.lookup_setRemote]
  split <;> rfl

theorem accepted_getD (s : Server) (node : String) :
    ((s.nodeToSession.lookup node).getD (.new node)).accepted.map (·.rawmsg) = accepted s node := by
  rw [accepted]
  cases s.nodeToSession.lookup node <;> rfl

theorem send_accepted {remote changed : Remote} {store after : Sessions}
    (final : (remote.send json msg store).final = some (changed, after)) :
    changed.accepted.map (·.rawmsg) = remote.accepted.map (·.rawmsg) ++ (msg.charvec json).toList := by
  rcases Remote.send_cases final with ⟨unbuilt, rfl, _⟩ | ⟨queued, built, taken⟩
  · simp [Option.map_eq_none_iff.mp unbuilt]
  · obtain ⟨encoded, _⟩ := QueuedMsg.ofMsg_eq built
    rcases taken with ⟨_, _, _, rfl, _⟩ | ⟨_, rfl, _⟩
    · simp [encoded]
    · simp [encoded]

theorem sendTo_accepted (node : String) (s : Server) :
    (s.sendTo json node msg).All fun t => ∀ other, accepted t other =
      accepted s other ++ if other = node then (msg.charvec json).toList else [] := by
  apply Outcome.all_map.mpr
  apply Outcome.all_of_final
  rintro ⟨changed, after⟩ final other
  rw [accepted_setRemote]
  split
  next same => rw [send_accepted final, same, accepted_getD]
  next => rw [List.append_nil]

/-- Where a message can be written, sending it to a channel is done. -/
theorem sendTo_done {text : List Char} (encoded : msg.charvec json = some text) (node : String)
    (s : Server) : ∃ t, s.sendTo json node msg = .done t := by
  generalize remote : (s.nodeToSession.lookup node).getD (.new node) = channel
  have built : QueuedMsg.ofMsg json s.store.now s.store.nextMsg msg =
      some ⟨text, msg.destType, s.store.now, s.store.nextMsg⟩ := by
    rw [QueuedMsg.ofMsg, encoded]
    rfl
  obtain ⟨after, done⟩ : ∃ after, channel.send json msg s.store = .done after := by
    simp only [Remote.send, built]
    split
    next high _ _ _ =>
      obtain ⟨_, after, _, put, _⟩ := enqueues_put encoded high s
      rw [put]
      exact ⟨_, rfl⟩
    next => exact ⟨_, rfl⟩
  exact ⟨_, by simp only [Server.sendTo, Server.onRemote, remote, done]; rfl⟩

/-- The loop of `handleBroadcastMsg`: it ends early only when there is nothing to send. -/
theorem forEach_accepted {nodes : List String} (distinct : nodes.Nodup) (s : Server) :
    (Outcome.forEach (fun node server => Server.sendTo json node msg server) nodes s).All fun t =>
      ∀ node, accepted t node = accepted s node ++ if node ∈ nodes then (msg.charvec json).toList else [] := by
  induction nodes generalizing s with
  | nil =>
    intro node
    simp
  | cons first nodes inductionHypothesis =>
    rw [List.nodup_cons] at distinct
    have sent := @sendTo_accepted json msg first s
    rw [Outcome.forEach]
    cases outcome : s.sendTo json first msg with
    | hung => trivial
    | raised u =>
      rw [outcome] at sent
      -- the message cannot be written, so nothing has been sent and nothing would be
      have unbuilt : msg.charvec json = none := by
        cases encoded : msg.charvec json with
        | none => rfl
        | some text =>
          obtain ⟨t, done⟩ := sendTo_done encoded first s
          simp [done] at outcome
      intro node
      rw [sent node]
      simp [unbuilt]
    | done u =>
      rw [outcome] at sent
      apply (inductionHypothesis distinct.2 u).mono
      intro t later node
      rw [later node, sent node]
      by_cases same : node = first
      · simp [same, distinct.1]
      · simp [same]

theorem handleAny_accepted (broadcast : msg.destType = .broadcast) (s : Server) :
    (Server.handleAny json msg s).All fun after => ∀ node, accepted after.2 node =
      accepted s node ++ if node ∈ s.nodeToSession then (msg.charvec json).toList else [] := by
  apply Outcome.all_map.mpr
  simp only [broadcast]
  apply (forEach_accepted s.nodeToSession.keys_nodup s).mono
  intro t sent node
  rw [sent node, if_congr AList.mem_keys.symm rfl rfl]

theorem handlePriorityMsg_accepted (msg : Msg) (s : Server) :
    (Server.handlePriorityMsg json config msg s).All fun after =>
      after.1.destType = msg.destType ∧ ∀ node, accepted after.2 node = accepted s node := by
  simp only [Server.handlePriorityMsg]
  cases registered : s.nodeToSession.lookup msg.from.node with
  | none => exact ⟨rfl, fun _ => rfl⟩
  | some remote =>
    apply Outcome.all_map.mpr
    apply Outcome.all_of_final
    rintro ⟨left, changed, after⟩ final
    obtain ⟨body, same⟩ := (Remote.handlePriorityMsg_msg json config msg remote s.store).of_final final
    refine ⟨by rw [same], ?_⟩
    intro node
    have taken : changed.accepted = remote.accepted := by
      rcases Remote.handlePriorityMsg_cases final with ⟨_, rfl, _⟩ | ⟨sid, _, ⟨_, rfl, _⟩ | assigned⟩
      · rfl
      · rfl
      · obtain ⟨_, _, tree, _, ⟨_, rfl, _⟩ | ⟨_, rfl, _⟩⟩ := assigned
        · rfl
        · cases Priority.ofBody tree <;> rfl
    rw [accepted_setRemote]
    split
    next channel =>
      rw [channel, accepted, registered, taken]
      rfl
    next => rfl

theorem stop_accepted (sid : SessionId) (s : Server) (node : String) :
    accepted (s.stop sid) node = accepted s node := by
  -- a channel that forgets a session keeps its history
  have slot : ∀ (u : Server) slot, accepted (u.onClosed sid slot) node = accepted u node := by
    intro u slot
    cases slot with
    | registry => rfl
    | host name => rfl
    | remote channel =>
      simp only [Server.onClosed]
      cases registered : u.nodeToSession.lookup channel with
      | none => rfl
      | some remote =>
        rw [accepted_setRemote]
        split
        next same =>
          rw [same, accepted, registered]
          rfl
        next => rfl
  have slots : ∀ (slots : List ClosedSlot) (u : Server),
      accepted (slots.foldl (Server.onClosed sid) u) node = accepted u node := by
    intro slots
    induction slots with
    | nil => exact fun _ => rfl
    | cons first slots inductionHypothesis => exact fun u => (inductionHypothesis _).trans (slot u first)
  rw [Server.stop]
  split
  · rfl
  · exact slots _ _

/-- Every message of an authenticated session is dispatched, and the session may be stopped after it. -/
theorem received_accepted {P : (String → List (List Char)) → Prop} {sid : SessionId} {header : PTree}
    {body : Body} (known : (s.store.session sid).authenticated = true)
    (dispatched : (s.dispatchTask json config (.incoming config header body (some sid))).All fun t =>
      P (accepted t))
    (next : s.received json config sid header body = some t) : P (accepted t) := by
  have handled : (s.dispatchMsg json config sid header body).All fun t => P (accepted t) := by
    simp only [Server.dispatchMsg, known, if_true]
    exact dispatched
  rcases (Server.received_cases next).2 with done | ⟨u, raised, rfl⟩
  · rw [done] at handled
    exact handled
  · rw [raised] at handled
    have same : accepted (u.readFailed sid) = accepted u := by
      funext node
      exact stop_accepted sid _ node
    rw [same]
    exact handled

/-- A broadcast message goes to every channel once. -/
theorem dispatchTask_accepted (broadcast : msg.destType = .broadcast)
    (ordinary : msg.cname ≠ some "priority") (s : Server) :
    (s.dispatchTask json config msg).All fun t => ∀ node, accepted t node = accepted s node ++
      if node ∈ s.nodeToSession ∧ msg.cname ≠ none then (msg.charvec json).toList else [] := by
  cases named : msg.cname with
  | none =>
    rw [Server.dispatchTask_of_unnamed named]
    intro node
    simp only [ne_eq, not_true_eq_false, and_false, if_false, List.append_nil]
    rfl
  | some cname =>
    have different : cname ≠ "priority" := by
      rintro rfl
      exact ordinary named
    rw [Server.dispatchTask_of_other named (.inr different)]
    apply Outcome.all_map.mpr
    apply (handleAny_accepted broadcast s).attempt.mono
    intro after sent node
    rw [sent node]
    simp

/-- Whatever its name is, it goes to no channel twice. -/
theorem dispatchTask_accepted_le (broadcast : msg.destType = .broadcast) (s : Server) :
    (s.dispatchTask json config msg).All fun t => ∀ node, ∃ new, accepted t node = accepted s node ++ new ∧
      new.length ≤ 1 := by
  have short : ∀ (p : Prop) [Decidable p] (text : Option (List Char)),
      (if p then text.toList else []).length ≤ 1 := by
    intro p _ text
    split
    · cases text <;> simp
    · simp
  by_cases handled : msg.cname = some "priority" ∧ msg.toMe = true
  · rw [Server.dispatchTask_of_priority handled.1 handled.2]
    apply Outcome.all_map.mpr
    have first := (@handlePriorityMsg_accepted json config msg s).attempt
    cases outcome : (Server.handlePriorityMsg json config msg s).attempt with
    | hung => trivial
    | raised after =>
      rw [outcome] at first
      exact fun node => ⟨[], by rw [first.2 node, List.append_nil], Nat.zero_le _⟩
    | done after =>
      rw [outcome] at first
      apply (handleAny_accepted (first.1.trans broadcast) after.2).attempt.mono
      intro last sent node
      exact ⟨_, by rw [sent node, first.2 node], short _ _⟩
  · cases named : msg.cname with
    | none =>
      rw [Server.dispatchTask_of_unnamed named]
      exact fun node => ⟨[], by rw [List.append_nil]; rfl, Nat.zero_le _⟩
    | some cname =>
      have other : msg.toMe = false ∨ cname ≠ "priority" := by
        by_cases mine : msg.toMe = true
        · exact .inr fun same => handled ⟨same ▸ named, mine⟩
        · exact .inl (by simpa using mine)
      rw [Server.dispatchTask_of_other named other]
      apply Outcome.all_map.mpr
      apply (handleAny_accepted broadcast s).attempt.mono
      intro after sent node
      exact ⟨_, sent node, short _ _⟩

end OneServer

/-! ## One message in a network -/

/-- A network of servers with what has become of one message.  `enqueued` counts how often a server
has put the message into its channel to a node, `underWay` are the texts of these copies that have not
been delivered, and `returned` says that a server has put it into the channel to the node from which
it had got it. -/
structure Flood (ι : Type*) where
  server : ι → Server
  injected : Bool
  enqueued : ι → String → Nat
  underWay : ι → String → List (List Char)
  returned : Bool

/-- An application of server `i` hands over the message, or server `k` reads the copy number `n` of
those that are under way to it from server `j`.  Everything else that happens is `other`, also what
has to do with other messages. -/
inductive FloodEvent (ι : Type*) where
  | other (i : ι) (e : ServerEvent)
  | inject (i : ι) (sid : SessionId)
  | deliver (j k : ι) (sid : SessionId) (n : Nat)

namespace Flood

variable {ι : Type*} [DecidableEq ι] (json : JsonCodec) (name : ι → String) (pid : ι → Nat)

/-- What the channel to a node has taken between two states of a server. -/
def copies (s t : Server) (node : String) : List (List Char) :=
  (accepted t node).drop (accepted s node).length

/-- Server `i` has handled the message, which has come from the node `source` or from an application. -/
def handled (i : ι) (source : Option String) (f : Flood ι) (t : Server) : Flood ι where
  server := Function.update f.server i t
  injected := true
  enqueued := Function.update f.enqueued i fun node =>
    f.enqueued i node + (copies (f.server i) t node).length
  underWay := Function.update f.underWay i fun node => f.underWay i node ++ copies (f.server i) t node
  returned := f.returned || source.any fun node => !(copies (f.server i) t node).isEmpty

/-- The copy number `n` arrives. -/
def take (j : ι) (node : String) (n : Nat) (f : Flood ι) : Flood ι :=
  { f with
    underWay := Function.update f.underWay j
      (Function.update (f.underWay j) node ((f.underWay j node).eraseIdx n)) }

/-- The message is injected once, as a broadcast message of an application.  A copy is read on a session
that is authenticated for the node which has sent it, by a server whose channel to that node is
connected. -/
def step (header : PTree) (body : Body) (f : Flood ι) : FloodEvent ι → Option (Flood ι)
  | .other i e =>
    ((f.server i).step json ⟨name i, "userver"⟩ (pid i) e).map fun t =>
      { f with server := Function.update f.server i t }
  | .inject i sid =>
    if f.injected = false ∧ Msg.destTypeOf (name i) header = .broadcast ∧
        ((f.server i).store.session sid).peerNode = some (name i) then
      ((f.server i).received json ⟨name i, "userver"⟩ sid header body).map (f.handled i none)
    else none
  | .deliver j k sid n =>
    match (f.underWay j (name k))[n]?.map (parse json) with
    | some ([(header, body)], some none) =>
      if j ≠ k ∧ (f.server k).connectedFn (name j) = some true ∧
          ((f.server k).store.session sid).peerNode = some (name j) then
        ((f.server k).received json ⟨name k, "userver"⟩ sid header body).map
          ((f.take j (name k) n).handled k (some (name j)))
      else none
    | _ => none

def initial (now : ι → Nat) (remotes : ι → List String) : Flood ι where
  server i := .initial ⟨name i, "userver"⟩ (now i) (remotes i)
  injected := false
  enqueued _ _ := 0
  underWay _ _ := []
  returned := false

end Flood

/-- Every server has sent the message at most once to each node, and none has sent it back. -/
structure Single {ι : Type*} (f : Flood ι) : Prop where
  once : ∀ i node, f.enqueued i node ≤ 1
  forward : f.returned = false

/-- The event is not the delivery of a copy. -/
def Undelivered {ι : Type*} : FloodEvent ι → Prop
  | .other _ _ | .inject _ _ => True
  | .deliver _ _ _ _ => False

/-- What holds as long as no copy is delivered. -/
structure Contained {ι : Type*} (json : JsonCodec) (header : PTree) (f : Flood ι) : Prop where
  single : Single f
  fresh : f.injected = false → ∀ i node, f.enqueued i node = 0
  copies : (header.find "cname").map PTree.data ≠ some "priority" → ∀ i node, ∀ text ∈ f.underWay i node,
    (header.find "cname").map PTree.data ≠ none ∧ ∃ line,
      parse json text = ([(header, .raw line)], some none) ∧
      ∀ msg : Msg, msg.header = header → msg.body = .raw line → msg.charvec json = some text

section Runs

variable {ι : Type*} {json : JsonCodec} {name : ι → String} {pid : ι → Nat} {header : PTree} {body : Body}
  {f g : Flood ι}

theorem contained_initial (now : ι → Nat) (remotes : ι → List String) :
    Contained json header (Flood.initial name now remotes) :=
  ⟨⟨fun _ _ => Nat.zero_le _, rfl⟩, fun _ _ _ => rfl, nofun⟩

/-- A text was written, so its trees can be. -/
theorem writable_of_charvec (lawful : json.Lawful) {msg : Msg} {text : List Char}
    (encoded : msg.charvec json = some text) :
    msg.header.Writable ∧ ∀ tree, msg.body = .tree tree → tree.Writable := by
  have refused : ∀ tree text, json.writeJson tree = some text → tree.Writable := by
    intro tree text written
    by_contra unwritable
    simp [lawful.refuses tree unwritable] at written
  cases isBody : msg.body with
  | raw bytes =>
    simp only [Msg.charvec, Msg.str, isBody, Option.map_eq_some_iff] at encoded
    obtain ⟨line, written, _⟩ := encoded
    refine ⟨refused _ _ written, ?_⟩
    rintro _ ⟨⟩
  | tree tree =>
    simp only [Msg.charvec, Msg.str, isBody, Option.bind_eq_some_iff, Option.map_eq_some_iff] at encoded
    obtain ⟨line, written, bodyLine, bodyWritten, _⟩ := encoded
    refine ⟨refused _ _ written, ?_⟩
    rintro _ ⟨rfl⟩
    exact refused _ _ bodyWritten

theorem authenticated_of_peerNode {ss : Session} {node : String} (peer : ss.peerNode = some node) :
    ss.authenticated = true := by
  obtain ⟨msg1, known, _⟩ := Option.map_eq_some_iff.mp peer
  rw [Session.authenticated, known]
  rfl

/-- What a server sends when it receives a broadcast message with an ordinary name. -/
theorem copies_received {nodeName : String} {s t : Server} {sid : SessionId}
    (known : (s.store.session sid).authenticated = true)
    (broadcast : Msg.destTypeOf nodeName header = .broadcast)
    (ordinary : (header.find "cname").map PTree.data ≠ some "priority")
    (next : s.received json ⟨nodeName, "userver"⟩ sid header body = some t) (node : String) :
    Flood.copies s t node =
      if node ∈ s.nodeToSession ∧ (header.find "cname").map PTree.data ≠ none then
        ((Msg.incoming ⟨nodeName, "userver"⟩ header body (some sid)).charvec json).toList
      else [] := by
  have cname : (Msg.incoming ⟨nodeName, "userver"⟩ header body (some sid)).cname =
      (header.find "cname").map PTree.data := by
    rw [Msg.cname, Msg.incoming_header]
  have sent := received_accepted (P := fun after => ∀ node, after node = accepted s node ++
      if node ∈ s.nodeToSession ∧ (Msg.incoming ⟨nodeName, "userver"⟩ header body (some sid)).cname ≠ none
      then ((Msg.incoming ⟨nodeName, "userver"⟩ header body (some sid)).charvec json).toList else []) known
    (dispatchTask_accepted (by simpa using broadcast) (by rwa [cname]) s) next
  rw [Flood.copies, sent node, List.drop_left, cname]

theorem copies_received_le {nodeName : String} {s t : Server} {sid : SessionId}
    (known : (s.store.session sid).authenticated = true)
    (broadcast : Msg.destTypeOf nodeName header = .broadcast)
    (next : s.received json ⟨nodeName, "userver"⟩ sid header body = some t) (node : String) :
    (Flood.copies s t node).length ≤ 1 := by
  have sent := received_accepted
    (P := fun after => ∀ node, ∃ new, after node = accepted s node ++ new ∧ new.length ≤ 1) known
    (dispatchTask_accepted_le (by simpa using broadcast) s) next
  obtain ⟨new, grown, short⟩ := sent node
  rwa [Flood.copies, grown, List.drop_left]

variable [DecidableEq ι]

theorem contained_inject (lawful : json.Lawful) {bytes : List Char}
    (handed : (header, body) ∈ (parse json bytes).1) (contained : Contained json header f) {i : ι}
    {sid : SessionId} (next : f.step json name pid header body (.inject i sid) = some g) :
    Contained json header g := by
  simp only [Flood.step] at next
  split at next
  next enabled =>
    obtain ⟨new, broadcast, peer⟩ := enabled
    obtain ⟨t, returned, rfl⟩ := Option.map_eq_some_iff.mp next
    have known := authenticated_of_peerNode peer
    refine ⟨⟨?_, ?_⟩, nofun, ?_⟩
    · intro other node
      by_cases same : other = i
      · subst same
        simp only [Flood.handled, Function.update_self, contained.fresh new, Nat.zero_add]
        exact copies_received_le known broadcast returned node
      · simp only [Flood.handled, Function.update_of_ne same]
        exact contained.single.once other node
    · simpa [Flood.handled] using contained.single.forward
    · intro ordinary other node text member
      by_cases same : other = i
      · subst same
        simp only [Flood.handled, Function.update_self, List.mem_append] at member
        rcases member with before | member
        · exact contained.copies ordinary other node text before
        · rw [copies_received known broadcast ordinary returned node] at member
          split at member
          next sent =>
            have encoded := Option.mem_toList.mp member
            have writable := writable_of_charvec lawful encoded
            simp only [Msg.incoming_header, Msg.incoming_body] at writable
            obtain ⟨noBodyChild, oneLine⟩ := encodable_parsed handed
            obtain ⟨text', line, encodes, _, texts⟩ := charvec_encodes lawful noBodyChild oneLine writable
            have same : some text' = some text :=
              (texts _ (Msg.incoming_header ..) (.inl (Msg.incoming_body ..))).symm.trans encoded
            cases same
            exact ⟨sent.2, line, encodes.frame, fun msg isHeader isBody => texts msg isHeader (.inr isBody)⟩
          next => cases member
      · simp only [Flood.handled, Function.update_of_ne same] at member
        exact contained.copies ordinary other node text member
  next => cases next

theorem contained_step (lawful : json.Lawful) {bytes : List Char}
    (handed : (header, body) ∈ (parse json bytes).1) (contained : Contained json header f)
    {e : FloodEvent ι} (next : f.step json name pid header body e = some g) (undelivered : Undelivered e) :
    Contained json header g := by
  cases e with
  | other i e =>
    obtain ⟨t, _, rfl⟩ := Option.map_eq_some_iff.mp next
    exact ⟨⟨contained.single.once, contained.single.forward⟩, contained.fresh, contained.copies⟩
  | inject i sid => exact contained_inject lawful handed contained next
  | deliver j k sid n => exact undelivered.elim

/-- A copy that is delivered is sent back. -/
theorem deliver_returns (proper : ∀ i, name i ≠ "*") (broadcast : header.get ["to", "n"] "" = "*")
    (ordinary : (header.find "cname").map PTree.data ≠ some "priority")
    (contained : Contained json header f) {j k : ι} {sid : SessionId} {n : Nat}
    (next : f.step json name pid header body (.deliver j k sid n) = some g) : g.returned = true := by
  simp only [Flood.step] at next
  split at next
  next _ header' body' found =>
    split at next
    next enabled =>
      obtain ⟨_, registered, peer⟩ := enabled
      obtain ⟨t, returned, rfl⟩ := Option.map_eq_some_iff.mp next
      obtain ⟨text, isText, parsed⟩ := Option.map_eq_some_iff.mp found
      obtain ⟨named, line, frame, texts⟩ :=
        contained.copies ordinary j (name k) text (List.mem_of_getElem? isText)
      -- the copy is the message that has been injected, with its body on a line
      obtain ⟨rfl, rfl⟩ : header' = header ∧ body' = .raw line := by
        simpa using parsed.symm.trans frame
      have kind : Msg.destTypeOf (name k) header' = .broadcast := by
        simp [Msg.destTypeOf, broadcast, Ne.symm (proper k)]
      have channel : name j ∈ (f.server k).nodeToSession := by
        obtain ⟨remote, isChannel, _⟩ := Option.map_eq_some_iff.mp registered
        exact AList.lookup_isSome.mp (by simp [isChannel])
      have sent := copies_received (authenticated_of_peerNode peer) kind ordinary returned (name j)
      rw [if_pos ⟨channel, named⟩, texts _ (Msg.incoming_header ..) (Msg.incoming_body ..)] at sent
      have back : Flood.copies ((f.take j (name k) n).server k) t (name j) = [text] := sent
      simp [Flood.handled, back]
    next => cases next
  next => cases next

/-- In a network of servers that run this code, a broadcast message is sent at most once to each node
and never back as long as no copy of it is delivered to another server; a message with another name
than that of priorities is not as soon as one is. -/
theorem broadcast_single_while_undelivered (lawful : json.Lawful) {bytes : List Char}
    (handed : (header, body) ∈ (parse json bytes).1) (broadcast : header.get ["to", "n"] "" = "*")
    (now : ι → Nat) (remotes : ι → List String) (events : List (FloodEvent ι)) :
    (Meets (Flood.step json name pid header body) (fun _ => Undelivered) (.initial name now remotes) events →
        Always (Flood.step json name pid header body) Single (.initial name now remotes) events) ∧
      ((∀ i, name i ≠ "*") → (header.find "cname").map PTree.data ≠ some "priority" →
        Always (Flood.step json name pid header body) Single (.initial name now remotes) events →
        Meets (Flood.step json name pid header body) (fun _ => Undelivered) (.initial name now remotes)
          events) := by
  have initial : Contained json header (Flood.initial name now remotes) := contained_initial now remotes
  have preserved : ∀ {f g : Flood ι} {e : FloodEvent ι}, Contained json header f →
      f.step json name pid header body e = some g → Undelivered e → Contained json header g :=
    fun contained next undelivered => contained_step lawful handed contained next undelivered
  constructor
  · intro meets
    exact (always_of_meets preserved initial meets).mono fun _ => Contained.single
  · intro proper ordinary always
    have violated : ∀ {f g : Flood ι} {e : FloodEvent ι}, Contained json header f →
        f.step json name pid header body e = some g → ¬ Undelivered e → ¬ Single g := by
      intro f g e contained next delivered single
      cases e with
      | other i e => exact delivered trivial
      | inject i sid => exact delivered trivial
      | deliver j k sid n =>
        have returned := deliver_returns proper broadcast ordinary contained next
        simp [single.forward] at returned
    exact (always_iff_meets (fun contained => contained.single) preserved violated initial).mp always

end Runs

/-- The two servers of `alpha` and `beta`. -/
def pair (i : Bool) : String := if i then "beta" else "alpha"

/-- They are connected with each other, and the application of `alpha` sends its message. -/
def injects : List (FloodEvent Bool) :=
  alphaJoins.map (.other false) ++ betaJoins.map (.other true) ++ [.inject false 2]

/-- A message to all applications of all nodes. -/
def toAll : PTree := (Msg.outgoing ⟨"alpha", "usender"⟩ ⟨"*", "*"⟩ "ping" .empty).header

/-- Before anything is delivered, the message has been sent once. -/
theorem broadcast_single_while_undelivered_injected :
    Always (Flood.step Json.compactJson pair (fun _ => 7) toAll (.raw ['7'])) Single
        (.initial pair (fun _ => 0) fun _ => []) injects ∧
      (exec (Flood.step Json.compactJson pair (fun _ => 7) toAll (.raw ['7']))
        (.initial pair (fun _ => 0) fun _ => []) injects).map (·.enqueued false "beta") = some 1 := by
  have lawful := Json.compactJson_lawful
  obtain ⟨wire, line, encodes, _⟩ := @charvec_encodes Json.compactJson toAll (.raw ['7']) lawful rfl
    (by rintro _ ⟨⟩; decide) ⟨by decide, by simp⟩
  have same : ['7'] = line := by simpa using encodes.same
  have handed : (toAll, Body.raw ['7']) ∈ (parse Json.compactJson wire).1 := by
    rw [encodes.frame, same]
    exact List.mem_singleton_self _
  have single := @broadcast_single_while_undelivered Bool Json.compactJson pair (fun _ => 7) toAll
    (.raw ['7']) _ lawful wire handed rfl (fun _ => 0) (fun _ => []) injects
  refine ⟨single.1 ?_, by decide +kernel⟩
  simp [injects, alphaJoins, betaJoins, Meets, Undelivered]

/-- When `beta` reads its copy it sends the message back, and when `alpha` reads that copy it sends the
message a second time. -/
theorem broadcast_comes_back :
    ¬ Always (Flood.step Json.compactJson pair (fun _ => 7) toAll (.raw ['7'])) Single
      (.initial pair (fun _ => 0) fun _ => [])
      (injects ++ [.deliver false true 0 0, .deliver true false 0 0]) := by
  have reached : (exec (Flood.step Json.compactJson pair (fun _ => 7) toAll (.raw ['7']))
      (.initial pair (fun _ => 0) fun _ => [])
      (injects ++ [.deliver false true 0 0, .deliver true false 0 0])).map (fun f =>
        (f.returned, f.enqueued false "beta")) = some (true, 2) := by
    decide +kernel
  intro always
  obtain ⟨f, executed, flooded⟩ := Option.map_eq_some_iff.mp reached
  have single := always.last executed
  simp [single.forward] at flooded

end Uzel.Verified.BroadcastFlood
