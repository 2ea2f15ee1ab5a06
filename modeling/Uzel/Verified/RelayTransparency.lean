import Uzel.Verified.WireRoundTrip

/-! # Forwarding a message

A message that is forwarded is encoded in the two-line form, whichever form it came in.  A body that
came as a line goes out as it came; one that is a tree, because it came inside of the header or because
a handler has asked for it, goes through the JSON writer, and the writer refuses a tree whose root has
data.  `relay_transparent_iff` says that this is all that can go wrong.
-/

namespace Uzel.Verified.RelayTransparency

open Foundation Framing WireRoundTrip

/-- The encoding of `carried` succeeds and is read as one message, with the header and the body of
`msg`. -/
def Relays (json : JsonCodec) (msg carried : Msg) : Prop :=
  ∃ bytes body, carried.charvec json = some bytes ∧
    processNewInput json.readJson record bytes .fresh [] = .accepted .fresh [(msg.header, body)] ∧
    body.parsed json = msg.body.parsed json

/-- A message is relayed as it is, also after its body has been parsed. -/
def Transparent (json : JsonCodec) (msg : Msg) : Prop :=
  Relays json msg msg ∧ ∀ tree, (msg.pbody json).1 = some tree → Relays json msg (msg.pbody json).2

/-- The trees of a message have a JSON text. -/
def Writable (json : JsonCodec) (header : PTree) (body : Body) : Prop :=
  header.Writable ∧ ∀ tree, body.parsed json = some tree → tree.Writable

theorem writable_of_written {json : JsonCodec} (lawful : json.Lawful) {tree : PTree} {text : List Char}
    (written : json.writeJson tree = some text) : tree.Writable := by
  by_contra unwritable
  rw [lawful.refuses tree unwritable] at written
  cases written

/-- What can be encoded has a header, and a body if that is a tree, that can be written. -/
theorem charvec_writable {json : JsonCodec} (lawful : json.Lawful) {msg : Msg} {bytes : List Char}
    (encoded : msg.charvec json = some bytes) : TreesWritable msg := by
  simp only [Msg.charvec, Msg.str] at encoded
  cases bodyKind : msg.body with
  | raw line =>
    simp only [bodyKind, Option.map_eq_some_iff] at encoded
    obtain ⟨header, written, -⟩ := encoded
    exact ⟨writable_of_written lawful written, fun tree isTree => by simp [bodyKind] at isTree⟩
  | tree content =>
    simp only [bodyKind, Option.bind_eq_some_iff, Option.map_eq_some_iff] at encoded
    obtain ⟨header, headerWritten, body, bodyWritten, -⟩ := encoded
    refine ⟨writable_of_written lawful headerWritten, ?_⟩
    rintro tree isTree
    obtain rfl : content = tree := by simpa [bodyKind] using isTree
    exact writable_of_written lawful bodyWritten

/-- The body that the successful parsing of a body leaves in the message stands for the same tree. -/
theorem parsed_pbody {json : JsonCodec} {msg : Msg} {tree : PTree}
    (parsed : (msg.pbody json).1 = some tree) : (msg.pbody json).2 = { msg with body := .tree tree } := by
  unfold Msg.pbody at parsed ⊢
  cases bodyKind : msg.body with
  | tree content =>
    simp only [bodyKind, Option.some.injEq] at parsed
    simp only [← parsed, ← bodyKind]
  | raw bytes =>
    cases read : json.readJson bytes with
    | none => simp [bodyKind, read] at parsed
    | some content =>
      simp only [bodyKind, read, Option.some.injEq] at parsed
      simp only [read, parsed]

theorem relays_of_writable {json : JsonCodec} (lawful : json.Lawful) {msg carried : Msg}
    (encodable : Encodable carried) (header : carried.header = msg.header)
    (body : carried.body.parsed json = msg.body.parsed json) (writable : TreesWritable carried) :
    Relays json msg carried := by
  obtain ⟨line, written, headerLine, read⟩ := lawful.inverts carried.header writable.1
  cases bodyKind : carried.body with
  | raw bytes =>
    refine ⟨line ++ '\n' :: (bytes ++ ['\n']), .raw bytes, ?_, ?_, ?_⟩
    · simp [Msg.charvec, Msg.str, bodyKind, written]
    · rw [← header]
      exact read_twoLines read encodable.noBodyChild headerLine (encodable.oneLine bytes bodyKind)
    · rw [← body, bodyKind]
  | tree tree =>
    obtain ⟨bodyText, bodyWritten, bodyLine, bodyRead⟩ := lawful.inverts tree (writable.2 tree bodyKind)
    refine ⟨line ++ '\n' :: (bodyText ++ ['\n']), .raw bodyText, ?_, ?_, ?_⟩
    · simp [Msg.charvec, Msg.str, bodyKind, written, bodyWritten]
    · rw [← header]
      exact read_twoLines read encodable.noBodyChild headerLine bodyLine
    · rw [← body, bodyKind]
      exact bodyRead

theorem transparent_iff {json : JsonCodec} (lawful : json.Lawful) {msg : Msg}
    (encodable : Encodable msg) : Transparent json msg ↔ Writable json msg.header msg.body := by
  constructor
  · rintro ⟨⟨bytes, body, encoded, -⟩, afterParsing⟩
    refine ⟨(charvec_writable lawful encoded).1, ?_⟩
    intro tree parsed
    rw [← Msg.pbody_fst] at parsed
    -- once the body has been parsed, it is a tree whatever the message was
    obtain ⟨bytes, body, encoded, -⟩ := afterParsing tree parsed
    rw [parsed_pbody parsed] at encoded
    exact (charvec_writable lawful encoded).2 tree rfl
  · rintro ⟨header, body⟩
    constructor
    · apply relays_of_writable lawful encodable rfl rfl
      refine ⟨header, fun tree isTree => body tree ?_⟩
      rw [isTree]
      rfl
    · intro tree parsed
      rw [parsed_pbody parsed]
      rw [Msg.pbody_fst] at parsed
      have treeEncodable : Encodable { msg with body := .tree tree } :=
        ⟨encodable.noBodyChild, fun bytes isRaw => by cases isRaw⟩
      apply @relays_of_writable _ lawful msg _ treeEncodable rfl parsed.symm
      refine ⟨header, fun other isTree => ?_⟩
      cases isTree
      exact body tree parsed

/-- The messages off the wire that are relayed as they came are exactly those whose header and whose
body, if it is JSON, are trees that the JSON writer can write. -/
theorem relay_transparent_iff {json : JsonCodec} (lawful : json.Lawful) (config : UConfig)
    (origin : Option SessionId) {blocks : List (List Char)} {log : List (PTree × Body)} {verdict : Bool}
    {header : PTree} {body : Body}
    (returned : observed (feed json.readJson record blocks .fresh []) = some (log, verdict))
    (member : (header, body) ∈ log) :
    Transparent json (.incoming config header body origin) ↔ Writable json header body := by
  have encodable := encodable_received (@Received.handed json config _ _ _ _ _ origin returned member)
  rw [transparent_iff lawful encodable, Msg.incoming_header, Msg.incoming_body]

/-- A one-line message comes in as it was written. -/
theorem oneLine_received {json : JsonCodec} (lawful : json.Lawful) {header body : PTree}
    (noBodyChild : header.find "body" = none) (writable : (header.putChild "body" body).Writable) :
    ∃ line, json.writeJson (header.putChild "body" body) = some line ∧
      observed (feed json.readJson record [line] .fresh []) = some ([(header, .tree body)], true) := by
  obtain ⟨line, written, oneLine, read⟩ := lawful.inverts _ writable
  refine ⟨line ++ ['\n'], written, ?_⟩
  simp only [feed, read_oneLine read (PTree.find_putChild "body" body header)
    (PTree.erase_putChild noBodyChild body) oneLine]
  rfl

/-- A message with an object inside of the header as its body. -/
theorem relay_transparent_object :
    Transparent Json.compactJson (.incoming ⟨"alpha", "userver"⟩ (.node "" [("cname", .leaf "ping")])
      (.tree (.node "" [("serial", .leaf "7")])) (some 3)) := by
  obtain ⟨line, -, returned⟩ := @oneLine_received _ Json.compactJson_lawful
    (.node "" [("cname", .leaf "ping")]) (.node "" [("serial", .leaf "7")]) rfl (by decide)
  apply (relay_transparent_iff Json.compactJson_lawful _ (some 3) returned List.mem_cons_self).mpr
  refine ⟨by decide, ?_⟩
  rintro tree ⟨rfl⟩
  decide

/-- A body that is only a string comes in, inside of the header, but cannot go out. -/
theorem string_body_not_relayed :
    ∃ line, Json.compactJson.writeJson (.node "" [("cname", .leaf "ping"), ("body", .leaf "x")]) =
        some line ∧
      observed (feed Json.compactJson.readJson record [line] .fresh []) =
        some ([(.node "" [("cname", .leaf "ping")], .tree (.leaf "x"))], true) ∧
      ¬ Transparent Json.compactJson (.incoming ⟨"alpha", "userver"⟩
        (.node "" [("cname", .leaf "ping")]) (.tree (.leaf "x")) (some 3)) := by
  obtain ⟨line, written, returned⟩ := @oneLine_received _ Json.compactJson_lawful
    (.node "" [("cname", .leaf "ping")]) (.leaf "x") rfl (by decide)
  refine ⟨line, written, returned, ?_⟩
  rintro ⟨⟨bytes, body, encoded, -⟩, -⟩
  have writable := (charvec_writable Json.compactJson_lawful encoded).2 (.leaf "x") rfl
  exact absurd writable (by decide)

end Uzel.Verified.RelayTransparency
