import Uzel.Uecho
import Uzel.Usender
import Uzel.Verified.EchoAnswers
import Uzel.Verified.PingPacing
import Uzel.Verified.RelayTransparency

/-! # A ping and its pong

A ping goes from `usender` to the userver of its node, from there to the userver of another node or not,
and to `uecho`; the pong takes the same way back.  A server reads the text of a message and writes it
again for the next peer, and `relayed_text` says that the text does not change there.  `ping_pong` puts
the ways and the two applications together: the serial number that `usender` prints is the one it has
sent, if that is an `unsigned`, and zero otherwise.
-/

namespace Uzel.Verified.PingPong

open Foundation RelayTransparency WireRoundTrip PingPacing ApplicationRuns

/-- A fresh input processor takes one message from the text. -/
def Reads (json : JsonCodec) (text : List Char) (header : PTree) (body : Body) : Prop :=
  processNewInput json.readJson record text .fresh [] = .accepted .fresh [(header, body)]

/-- The text that arrives behind any number of servers, each of which reads the message and encodes it
again. -/
inductive Carried (json : JsonCodec) : List Char → List Char → Prop
  | direct (text : List Char) : Carried json text text
  | relayed {text written arrived : List Char} {header : PTree} {body : Body} {config : UConfig}
      {origin : Option SessionId} (read : Reads json text header body)
      (encoded : (Msg.incoming config header body origin).charvec json = some written)
      (rest : Carried json written arrived) : Carried json text arrived

/-! ## Texts -/

/-- The text has the two lines, and they are the ones that the writer makes. -/
structure TwoLines (json : JsonCodec) (text : List Char) (header : PTree) (bytes : List Char) : Prop where
  written : ∃ line, json.writeJson header = some (line ++ ['\n']) ∧
    text = line ++ '\n' :: (bytes ++ ['\n'])
  read : Reads json text header (.raw bytes)

section Texts

variable {json : JsonCodec}

theorem twoLines {header : PTree} {bytes : List Char} (lawful : json.Lawful) (writable : header.Writable)
    (noBodyChild : header.find "body" = none) (oneLine : '\n' ∉ bytes) :
    ∃ text, TwoLines json text header bytes := by
  obtain ⟨line, written, headerLine, read⟩ := lawful.inverts header writable
  exact ⟨_, ⟨line, written, rfl⟩, read_twoLines read noBodyChild headerLine oneLine⟩

/-- The same header and the same line give the same text. -/
theorem TwoLines.charvec {text : List Char} {header : PTree} {bytes : List Char}
    (lines : TwoLines json text header bytes) {msg : Msg} (sameHeader : msg.header = header)
    (sameBody : msg.body = .raw bytes) : msg.charvec json = some text := by
  obtain ⟨line, written, rfl⟩ := lines.written
  simp [Msg.charvec, Msg.str, sameHeader, sameBody, written]

/-- What can be encoded is encoded in two lines, and the second one stands for the body. -/
theorem twoLines_charvec (lawful : json.Lawful) {msg : Msg} (encodable : Encodable msg) {text : List Char}
    (encoded : msg.charvec json = some text) :
    ∃ bytes, TwoLines json text msg.header bytes ∧ (Body.raw bytes).parsed json = msg.body.parsed json := by
  obtain ⟨header, body⟩ := charvec_writable lawful encoded
  obtain ⟨line, written, headerLine, read⟩ := lawful.inverts msg.header header
  cases bodyKind : msg.body with
  | raw bytes =>
    have isText : text = line ++ '\n' :: (bytes ++ ['\n']) := by
      simpa [Msg.charvec, Msg.str, bodyKind, written, eq_comm] using encoded
    exact ⟨bytes, ⟨⟨line, written, isText⟩, isText ▸ read_twoLines read encodable.noBodyChild headerLine
      (encodable.oneLine bytes bodyKind)⟩, rfl⟩
  | tree tree =>
    obtain ⟨bytes, bodyWritten, bodyLine, bodyRead⟩ := lawful.inverts tree (body tree bodyKind)
    have isText : text = line ++ '\n' :: (bytes ++ ['\n']) := by
      simpa [Msg.charvec, Msg.str, bodyKind, written, bodyWritten, eq_comm] using encoded
    exact ⟨bytes, ⟨⟨line, written, isText⟩, isText ▸ read_twoLines read encodable.noBodyChild headerLine
      bodyLine⟩, bodyRead⟩

theorem Reads.unique {text : List Char} {header header' : PTree} {body body' : Body}
    (read : Reads json text header body) (read' : Reads json text header' body') :
    header' = header ∧ body' = body := by
  have same := record_unique read' read
  exact Prod.mk.inj same

theorem TwoLines.carried {text arrived : List Char} {header : PTree} {bytes : List Char}
    (lines : TwoLines json text header bytes) (carried : Carried json text arrived) : arrived = text := by
  induction carried with
  | direct => rfl
  | @relayed text written arrived _ _ config origin read encoded rest inductionHypothesis =>
    obtain ⟨rfl, rfl⟩ := lines.read.unique read
    have same : written = text := by
      rw [lines.charvec (Msg.incoming_header ..) (Msg.incoming_body ..)] at encoded
      exact (Option.some.inj encoded).symm
    subst same
    exact inductionHypothesis lines

/-- The text of a message is the same behind any number of servers. -/
theorem relayed_text (lawful : json.Lawful) {config : UConfig} {msg : Msg} (built : Built json config msg)
    {text arrived : List Char} (encoded : msg.charvec json = some text)
    (carried : Carried json text arrived) : arrived = text := by
  obtain ⟨bytes, lines, -⟩ := twoLines_charvec lawful (encodable_built built) encoded
  exact lines.carried carried

/-- A ping to another node. -/
theorem relayed_text_ping :
    ∃ text, (Usender.ping ⟨"alpha", "usender"⟩ ⟨"uecho", "beta"⟩ 7).charvec Json.compactJson = some text ∧
      ∀ arrived, Carried Json.compactJson text arrived → arrived = text := by
  obtain ⟨queued, built⟩ := ofMsg_ping Json.compactJson_lawful ⟨"alpha", "usender"⟩ ⟨"uecho", "beta"⟩ 7 0 0
  have encoded := (QueuedMsg.ofMsg_eq built).1
  exact ⟨_, encoded, fun arrived carried =>
    relayed_text Json.compactJson_lawful (.outgoing ⟨"uecho", "beta"⟩ "ping" _) encoded carried⟩

end Texts

/-! ## Serial numbers -/

theorem isDigit_bounds {c : Char} (digit : c.isDigit = true) : 48 ≤ c.toNat ∧ c.toNat ≤ 57 := by
  simp only [Char.isDigit, Bool.and_eq_true, decide_eq_true_eq] at digit
  exact digit

theorem not_isSpace_of_isDigit {c : Char} (digit : c.isDigit = true) : Usender.isSpace c = false := by
  have bounds := isDigit_bounds digit
  have blank : c ≠ ' ' := by
    rintro rfl
    exact absurd bounds.1 (by decide)
  have beyond : ¬ c ≤ '\r' := by
    intro least
    have value : c.toNat ≤ 13 := UInt32.le_iff_toNat_le.mp least
    omega
  simp [Usender.isSpace, blank, beyond]

theorem readUnsigned_digits {digits : List Char} (some_ : digits ≠ [])
    (all : ∀ c ∈ digits, c.isDigit = true) :
    Usender.readUnsigned digits =
      if Nat.ofDigitChars 10 digits 0 < 2 ^ 32 then some (Nat.ofDigitChars 10 digits 0) else none := by
  obtain ⟨first, rest, rfl⟩ := List.exists_cons_of_ne_nil some_
  have digit := all first List.mem_cons_self
  have noMinus : first ≠ '-' := by
    rintro rfl
    exact absurd digit (by decide)
  have noPlus : first ≠ '+' := by
    rintro rfl
    exact absurd digit (by decide)
  have whole : (first :: rest).takeWhile Char.isDigit = first :: rest :=
    List.takeWhile_eq_self_iff.mpr all
  have behind : (first :: rest).dropWhile Char.isDigit = [] := List.dropWhile_eq_nil_iff.mpr all
  have value : (first :: rest).foldl (fun value digit => value * 10 + (digit.toNat - 48)) 0 =
      Nat.ofDigitChars 10 (first :: rest) 0 := by
    rw [Nat.ofDigitChars_eq_foldl]
    congr 1
    funext value digit
    rw [Nat.mul_comm]
    rfl
  have noSpace : (first :: rest).dropWhile Usender.isSpace = first :: rest := by
    rw [List.dropWhile_cons_of_neg]
    simp [not_isSpace_of_isDigit digit]
  have minus : (some first == some '-') = false := by simpa using noMinus
  have plus : (some first == some '+') = false := by simpa using noPlus
  simp only [Usender.readUnsigned, noSpace, List.head?_cons, minus, plus, Bool.or_self, Bool.false_eq_true,
    if_false, whole, behind, value, List.dropWhile_nil, ne_eq, not_true_eq_false]
  rcases Nat.lt_or_ge (Nat.ofDigitChars 10 (first :: rest) 0) 4294967296 with fits | large
  · simp [fits, Nat.not_le.mpr fits]
  · simp [large, Nat.not_lt.mpr large]

theorem readUnsigned_toString (serial : Nat) :
    Usender.readUnsigned (toString serial).toList = if serial < 2 ^ 32 then some serial else none := by
  have text : (toString serial).toList = Nat.toDigits 10 serial := Nat.toList_repr
  have digits : ∀ c ∈ Nat.toDigits 10 serial, c.isDigit = true := fun c member =>
    Nat.isDigit_of_mem_toDigits (by decide) (by decide) member
  rw [text, readUnsigned_digits Nat.toDigits_ne_nil digits, Nat.ofDigitChars_ten_toDigits]

/-! ## There and back -/

/-- The node that an address stands for: `localhost` is the own one. -/
def realNode (config : UConfig) (node : String) : String :=
  if node = "localhost" then config.nodeName else node

/-- The address leads from the one application to the other, and so does the sender on the way back. -/
structure Reaches (sender echo : UConfig) (addrto : Addr) : Prop where
  app : addrto.app = echo.appName
  node : realNode sender addrto.node = echo.nodeName
  back : realNode echo sender.nodeName = sender.nodeName
  complete : addrto.app ≠ "" ∧ addrto.node ≠ ""
  named : sender.appName ≠ "" ∧ sender.nodeName ≠ "" ∧ echo.nodeName ≠ ""

/-- The header of a message between two applications. -/
def headerOf (config : UConfig) (app node cname : String) : PTree :=
  .node "" [("from", .node "" [("n", .leaf config.nodeName), ("a", .leaf config.appName)]),
    ("to", .node "" [("n", .leaf node), ("a", .leaf app)]), ("cname", .leaf cname)]

section Messages

variable {json : JsonCodec} {config peer : UConfig} {app node cname : String} {body : Body}
  {origin : Option SessionId}

theorem writable_headerOf : (headerOf config app node cname).Writable := by
  simp [headerOf, PTree.Writable, PTree.exclusive, PTree.exclusiveChildren, PTree.exclusiveChild, PTree.leaf]

theorem noBodyChild_headerOf : (headerOf config app node cname).find "body" = none := rfl

theorem header_ping (sender : UConfig) {addrto : Addr} (complete : addrto.app ≠ "" ∧ addrto.node ≠ "")
    (serial : Nat) : (Usender.ping sender addrto serial).header =
      headerOf sender addrto.app (realNode sender addrto.node) "ping" := by
  rw [Usender.ping, header_outgoing, if_pos complete]
  rfl

theorem incoming_headerOf (isNode : node = peer.nodeName) (isApp : app = peer.appName)
    (named : peer.nodeName ≠ "") :
    let msg := Msg.incoming peer (headerOf config app node cname) body origin
    msg.cname = some cname ∧ msg.toMe = true ∧ msg.from = ⟨config.appName, config.nodeName⟩ := by
  subst isNode isApp
  have toNode : (headerOf config peer.appName peer.nodeName cname).get ["to", "n"] "" = peer.nodeName := rfl
  have toApp : (headerOf config peer.appName peer.nodeName cname).get ["to", "a"] "" = peer.appName := rfl
  refine ⟨?_, ?_, ?_⟩
  · rw [Msg.cname, Msg.incoming_header]
    rfl
  · simp only [Msg.incoming, Msg.updateFrom, Msg.updateDest, toNode, toApp]
    split_ifs with nobody everyone <;> simp_all
  · rw [Msg.incoming_from]
    rfl

/-- The pong has the header of a message to the sender of the ping. -/
theorem header_pong (sender echo : UConfig) (named : sender.appName ≠ "" ∧ sender.nodeName ≠ "") :
    (Uecho.pong echo (.incoming echo (headerOf sender app node "ping") body origin)).header =
      headerOf echo sender.appName (realNode echo sender.nodeName) "pong" := by
  have sent : (Msg.incoming echo (headerOf sender app node "ping") body origin).from =
      ⟨sender.appName, sender.nodeName⟩ := by
    rw [Msg.incoming_from]
    rfl
  simp only [Uecho.pong, sent, Msg.forward, Msg.setDest, if_pos named, Msg.setCname, Msg.updateDest_header,
    Msg.setFromLocal, Msg.incoming_header]
  rfl

theorem body_pong (echo : UConfig) (msg : Msg) : (Uecho.pong echo msg).body = msg.body := by
  simp only [Uecho.pong, Msg.forward, Msg.setDest, Msg.setCname, Msg.updateDest_body]
  split <;> rfl

end Messages

/-- `uecho` answers the text of a ping with the text of a pong, which carries the same line. -/
theorem echo_answers {json : JsonCodec} (lawful : json.Lawful) {sender echo : UConfig}
    (back : realNode echo sender.nodeName = sender.nodeName)
    (named : sender.appName ≠ "" ∧ sender.nodeName ≠ "" ∧ echo.nodeName ≠ "") {bytes : List Char}
    (oneLine : '\n' ∉ bytes) (origin : Option SessionId) {app : Application Unit} {sid : SessionId}
    (registered : app.client.locals.lookup "userver" = some sid) :
    ∃ left pong answer,
      (Uecho.wiring json echo).dispatcher.dispatch
          (.incoming echo (headerOf sender echo.appName echo.nodeName "ping") (.raw bytes) origin) app =
        .done left ∧
      left.2.given = app.given ++ [(app.client.store.now, pong)] ∧ pong.charvec json = some answer ∧
      TwoLines json answer (headerOf echo sender.appName sender.nodeName "pong") bytes := by
  generalize isMsg : Msg.incoming echo (headerOf sender echo.appName echo.nodeName "ping") (.raw bytes)
    origin = msg
  obtain ⟨cname, toMe, -⟩ := @incoming_headerOf sender echo echo.appName echo.nodeName "ping" (.raw bytes)
    origin rfl rfl named.2.2
  rw [isMsg] at cname toMe
  obtain ⟨answer, lines⟩ := @twoLines json (headerOf echo sender.appName sender.nodeName "pong") bytes lawful
    writable_headerOf noBodyChild_headerOf oneLine
  have header : (Uecho.pong echo msg).header = headerOf echo sender.appName sender.nodeName "pong" := by
    rw [← isMsg, header_pong sender echo ⟨named.1, named.2.1⟩, back]
  have encoded : (Uecho.pong echo msg).charvec json = some answer := by
    apply lines.charvec header
    rw [body_pong, ← isMsg, Msg.incoming_body]
  have sent : app.client.send json (Uecho.pong echo msg) =
      some ((app.client.store.putOutQueue json sid (Uecho.pong echo msg)).map app.client.withStore) := by
    simp only [NetClient.send, registered, Option.map_some]
  rcases @putOutQueue_cases json sid (Uecho.pong echo msg) app.client.store with
    ⟨queued, store, -, done⟩ | ⟨unencodable, -⟩
  · refine ⟨(msg, { app with
      client := app.client.withStore store
      given := app.given ++ [(app.client.store.now, Uecho.pong echo msg)] }), Uecho.pong echo msg, answer, ?_,
      rfl, encoded, lines⟩
    rw [done] at sent
    rw [Uecho.wiring, dispatch_named cname toMe]
    simp only [Uecho.onPing, Application.send, sent, Outcome.map_done, Outcome.attempt_done]
  · rw [QueuedMsg.ofMsg, encoded] at unencodable
    cases unencodable

/-- `usender` prints the number that the line of a pong stands for. -/
theorem usender_prints {json : JsonCodec} {sender echo : UConfig} (named : sender.nodeName ≠ "")
    {bytes : List Char} {serial : Nat}
    (read : json.readJson bytes = some (.node "" [("serial", .leaf (toString serial))]))
    (origin : Option SessionId) (app : Application Usender) :
    ∃ left, (Usender.wiring json sender).dispatcher.dispatch
        (.incoming sender (headerOf echo sender.appName sender.nodeName "pong") (.raw bytes) origin) app =
      .done left ∧
      left.2.state.printed = app.state.printed ++ [if serial < 2 ^ 32 then serial else 0] := by
  generalize isMsg : Msg.incoming sender (headerOf echo sender.appName sender.nodeName "pong") (.raw bytes)
    origin = msg
  obtain ⟨cname, toMe, -⟩ := @incoming_headerOf echo sender sender.appName sender.nodeName "pong" (.raw bytes)
    origin rfl rfl named
  rw [isMsg] at cname toMe
  have parsed : (msg.pbody json).1 = some (.node "" [("serial", .leaf (toString serial))]) := by
    rw [Msg.pbody_fst, ← isMsg, Msg.incoming_body]
    exact read
  have value : Usender.serialOf (.node "" [("serial", .leaf (toString serial))]) =
      if serial < 2 ^ 32 then serial else 0 := by
    show (Usender.readUnsigned (toString serial).toList).getD 0 = _
    rw [readUnsigned_toString]
    split <;> rfl
  obtain ⟨after, isAfter⟩ : ∃ after,
      msg.pbody json = (some (.node "" [("serial", .leaf (toString serial))]), after) :=
    ⟨_, Prod.ext parsed rfl⟩
  refine ⟨(after, { app with state := { app.state with
    printed := app.state.printed ++ [if serial < 2 ^ 32 then serial else 0] } }), ?_, rfl⟩
  rw [Usender.wiring, dispatch_named cname toMe]
  simp only [Usender.onPong, isAfter, value, Outcome.attempt_done]

/-- The way of a ping from the one application to the other and of the pong back, over any servers, up to
the number that is printed. -/
def Returns (json : JsonCodec) (sender echo : UConfig) (addrto : Addr) (serial printed : Nat) : Prop :=
  ∃ text, (Usender.ping sender addrto serial).charvec json = some text ∧
    ∀ arrived, Carried json text arrived → ∃ header body, Reads json arrived header body ∧
      ∀ origin (app : Application Unit) sid, app.client.locals.lookup "userver" = some sid →
        ∃ left pong answer,
          (Uecho.wiring json echo).dispatcher.dispatch (.incoming echo header body origin) app = .done left ∧
          left.2.given = app.given ++ [(app.client.store.now, pong)] ∧ pong.charvec json = some answer ∧
          ∀ returned, Carried json answer returned → ∃ header body, Reads json returned header body ∧
            ∀ origin (app : Application Usender), ∃ left,
              (Usender.wiring json sender).dispatcher.dispatch (.incoming sender header body origin) app =
                .done left ∧
              left.2.state.printed = app.state.printed ++ [printed]

/-- Whatever servers are on the way there and back, each ping of `usender` is answered by `uecho` with a
pong, and `usender` prints the serial number of that ping. -/
theorem ping_pong {json : JsonCodec} (lawful : json.Lawful) {sender echo : UConfig} {addrto : Addr}
    (reaches : Reaches sender echo addrto) (serial : Nat) :
    Returns json sender echo addrto serial (if serial < 2 ^ 32 then serial else 0) := by
  have isHeader := header_ping sender reaches.complete serial
  rw [reaches.app, reaches.node] at isHeader
  generalize isTree : PTree.node "" [("serial", .leaf (toString serial))] = tree
  have writable : tree.Writable := by
    rw [← isTree]
    simp [PTree.Writable, PTree.exclusive, PTree.exclusiveChildren, PTree.exclusiveChild, PTree.leaf]
  have isBody : (Usender.ping sender addrto serial).body = .tree tree := by
    rw [← isTree]
    exact body_outgoing sender addrto "ping" _
  obtain ⟨bytes, bodyWritten, oneLine, bodyRead⟩ := lawful.inverts tree writable
  obtain ⟨text, lines⟩ := @twoLines json (headerOf sender echo.appName echo.nodeName "ping") bytes lawful
    writable_headerOf noBodyChild_headerOf oneLine
  refine ⟨text, ?_, ?_⟩
  · obtain ⟨line, written, rfl⟩ := lines.written
    simp [Msg.charvec, Msg.str, isHeader, isBody, written, bodyWritten]
  · intro arrived carried
    rw [lines.carried carried]
    refine ⟨_, _, lines.read, fun origin app sid registered => ?_⟩
    obtain ⟨left, pong, answer, answered, given, encoded, answerLines⟩ :=
      echo_answers lawful reaches.back reaches.named oneLine origin registered
    refine ⟨left, pong, answer, answered, given, encoded, fun returned carried' => ?_⟩
    rw [answerLines.carried carried']
    refine ⟨_, _, answerLines.read, fun origin app => ?_⟩
    exact usender_prints reaches.named.2.1 (isTree ▸ bodyRead) origin app

theorem ping_pong_nodes :
    Returns Json.compactJson ⟨"alpha", "usender"⟩ ⟨"beta", "uecho"⟩ ⟨"uecho", "beta"⟩ 7 7 :=
  ping_pong Json.compactJson_lawful ⟨rfl, by decide, by decide, by decide, by decide⟩ 7

end Uzel.Verified.PingPong
