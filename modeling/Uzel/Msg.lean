import Uzel.Foundation.PropertyTree

/-! # Messages (`msg.cpp`, `addr.cpp`, `uconfig.cpp`)

A message is a header tree and a body that is either the bytes of a line or a tree.  The sender, the
destination, its kind and whether the message is for this application are cached next to the header.

A C++ `char` is a `Char` here, so a byte stream is a `List Char`.  The JSON reader and writer of the
property tree library are the fields of a `JsonCodec`; where they raise, the functions below return
`none`.
-/

namespace Uzel

open Foundation

abbrev SessionId := Nat

structure Addr where
  app : String
  node : String
deriving DecidableEq, Repr

/-- `uzel::Addr()`, the address of the peer of a connection. -/
def Addr.none : Addr := ⟨"", ""⟩

/-- `Addr(fulladdr, atpos)`, with `none` for `npos`. -/
def Addr.ofParts (fulladdr : String) : Option Nat → Addr
  | .none => ⟨fulladdr, ""⟩
  | .some atpos =>
    ⟨.ofList (fulladdr.toList.take atpos), .ofList (fulladdr.toList.drop (atpos + 1))⟩

/-- `Addr(fulladdr)`: the application, and the node behind the first `@`. -/
def Addr.ofString (fulladdr : String) : Addr := ofParts fulladdr (fulladdr.toList.idxOf? '@')

/-- What the configuration object answers: the host name and the name of the executable. -/
structure UConfig where
  nodeName : String
  appName : String
deriving DecidableEq, Repr

def UConfig.isLocalNode (config : UConfig) (node : String) : Bool := node == config.nodeName

inductive DestType where
  | service | «local» | remote | broadcast | localbroadcast
deriving DecidableEq, Repr

/-- `std::variant<std::vector<char>, ptree>` -/
inductive Body where
  | raw (bytes : List Char)
  | tree (tree : PTree)

/-- The tree that a body stands for. -/
def Body.parsed (json : JsonCodec) : Body → Option PTree
  | .tree content => some content
  | .raw bytes => json.readJson bytes

structure Msg where
  header : PTree
  body : Body
  destType : DestType
  dest : Addr
  «from» : Addr
  toMe : Bool
  origin : Option SessionId

namespace Msg

def updateFrom (msg : Msg) : Msg :=
  { msg with «from» := ⟨msg.header.get ["from", "a"] "", msg.header.get ["from", "n"] ""⟩ }

def updateDest (config : UConfig) (msg : Msg) : Msg :=
  let node := msg.header.get ["to", "n"] ""
  let app := msg.header.get ["to", "a"] ""
  let msg := { msg with destType := .local, toMe := false, dest := ⟨app, node⟩ }
  if app = "" ∧ node = "" then
    { msg with destType := .service, toMe := true }
  else if node = "" then
    { msg with toMe := app == config.appName }
  else if node = config.nodeName then
    if app = "*" then
      { msg with destType := .localbroadcast, toMe := true }
    else
      { msg with toMe := app == config.appName }
  else if node = "*" then
    { msg with destType := .broadcast, toMe := app == config.appName || app == "*" }
  else
    { msg with destType := .remote }

/-- The two constructors of incoming messages; a line becomes a raw body, a tree stays one. -/
def incoming (config : UConfig) (header : PTree) (body : Body) (origin : Option SessionId) : Msg :=
  (updateFrom ⟨header, body, .local, .none, .none, false, origin⟩).updateDest config

def setFromLocal (config : UConfig) (msg : Msg) : Msg :=
  { msg with
    header := (msg.header.put ["from", "n"] config.nodeName).put ["from", "a"] config.appName
    «from» := ⟨config.appName, config.nodeName⟩ }

def setDest (config : UConfig) (dest : Addr) (msg : Msg) : Msg :=
  let realhname := if dest.node = "localhost" then config.nodeName else dest.node
  let msg :=
    if dest.app ≠ "" ∧ dest.node ≠ "" then
      { msg with header := (msg.header.put ["to", "n"] realhname).put ["to", "a"] dest.app }
    else msg
  msg.updateDest config

def setCname (cname : String) (msg : Msg) : Msg :=
  { msg with header := msg.header.put ["cname"] cname }

/-- `Msg(dest, cname, body)` -/
def outgoing (config : UConfig) (dest : Addr) (cname : String) (body : PTree) : Msg :=
  let msg := setFromLocal config ⟨.empty, .tree body, .service, .none, .none, false, none⟩
  (msg.setDest config dest).setCname cname

/-- `Msg(dest, other)`, the constructors that forward a message. -/
def forward (config : UConfig) (dest : Addr) (other : Msg) : Msg :=
  (other.setFromLocal config).setDest config dest

/-- Raises when the header has no such child. -/
def cname (msg : Msg) : Option String := (msg.header.find "cname").map PTree.data

def fromLocal (config : UConfig) (msg : Msg) : Bool := config.isLocalNode msg.from.node

/-- The two-line form: the header, then the body. -/
def str (json : JsonCodec) (msg : Msg) : Option (List Char) :=
  match msg.body with
  | .raw bytes => (json.writeJson msg.header).map fun header => header ++ bytes ++ ['\n']
  | .tree tree =>
    (json.writeJson msg.header).bind fun header => (json.writeJson tree).map fun body => header ++ body

/-- What `move_tostr` leaves of a message with a tree body: the body has moved into the header. -/
def embedBody (msg : Msg) : Msg :=
  match msg.body with
  | .raw _ => msg
  | .tree tree => { msg with header := msg.header.putChild "body" tree, body := .tree .empty }

/-- The one-line form for a tree body. -/
def moveToStr (json : JsonCodec) (msg : Msg) : Option (List Char) :=
  match msg.body with
  | .raw _ => msg.str json
  | .tree _ => json.writeJson msg.embedBody.header

def charvec (json : JsonCodec) (msg : Msg) : Option (List Char) := msg.str json

/-- The body as a tree, and the message with the body that the call leaves in it.  The raw bytes are
moved out before they are parsed, so a parse error leaves an empty tree behind. -/
def pbody (json : JsonCodec) (msg : Msg) : Option PTree × Msg :=
  match msg.body with
  | .tree tree => (some tree, msg)
  | .raw bytes =>
    match json.readJson bytes with
    | some tree => (some tree, { msg with body := .tree tree })
    | none => (none, { msg with body := .tree .empty })

theorem pbody_fst (json : JsonCodec) (msg : Msg) : (msg.pbody json).1 = msg.body.parsed json := by
  unfold pbody
  cases msg.body with
  | tree tree => rfl
  | raw bytes =>
    simp only [Body.parsed]
    cases json.readJson bytes <;> rfl

/-- Parsing the body touches nothing else. -/
theorem pbody_snd (json : JsonCodec) (msg : Msg) :
    ∃ body, (msg.pbody json).2 = { msg with body } := by
  unfold pbody
  split
  · exact ⟨msg.body, rfl⟩
  · split
    · exact ⟨_, rfl⟩
    · exact ⟨_, rfl⟩

/-! ## The cached fields -/

/-- The kind of destination is a function of the header and of the name of the node. -/
def destTypeOf (nodeName : String) (header : PTree) : DestType :=
  let node := header.get ["to", "n"] ""
  let app := header.get ["to", "a"] ""
  if app = "" ∧ node = "" then .service
  else if node = "" then .local
  else if node = nodeName then (if app = "*" then .localbroadcast else .local)
  else if node = "*" then .broadcast
  else .remote

@[simp] theorem updateDest_header (config : UConfig) (msg : Msg) :
    (msg.updateDest config).header = msg.header := by
  unfold updateDest; dsimp only; split_ifs <;> rfl

@[simp] theorem updateDest_body (config : UConfig) (msg : Msg) :
    (msg.updateDest config).body = msg.body := by
  unfold updateDest; dsimp only; split_ifs <;> rfl

@[simp] theorem updateDest_from (config : UConfig) (msg : Msg) :
    (msg.updateDest config).from = msg.from := by
  unfold updateDest; dsimp only; split_ifs <;> rfl

@[simp] theorem updateDest_origin (config : UConfig) (msg : Msg) :
    (msg.updateDest config).origin = msg.origin := by
  unfold updateDest; dsimp only; split_ifs <;> rfl

@[simp] theorem updateDest_dest (config : UConfig) (msg : Msg) :
    (msg.updateDest config).dest = ⟨msg.header.get ["to", "a"] "", msg.header.get ["to", "n"] ""⟩ := by
  unfold updateDest; dsimp only; split_ifs <;> rfl

@[simp] theorem updateDest_destType (config : UConfig) (msg : Msg) :
    (msg.updateDest config).destType = destTypeOf config.nodeName msg.header := by
  unfold updateDest destTypeOf; dsimp only; split_ifs <;> rfl

/-- A service message is always for this application. -/
theorem updateDest_toMe_of_service {config : UConfig} {msg : Msg}
    (service : (msg.updateDest config).destType = .service) : (msg.updateDest config).toMe = true := by
  revert service
  unfold updateDest; dsimp only; split_ifs <;> simp

@[simp] theorem incoming_header (config : UConfig) (header : PTree) (body : Body)
    (origin : Option SessionId) : (incoming config header body origin).header = header := by
  simp [incoming, updateFrom]

@[simp] theorem incoming_body (config : UConfig) (header : PTree) (body : Body)
    (origin : Option SessionId) : (incoming config header body origin).body = body := by
  simp [incoming, updateFrom]

@[simp] theorem incoming_origin (config : UConfig) (header : PTree) (body : Body)
    (origin : Option SessionId) : (incoming config header body origin).origin = origin := by
  simp [incoming, updateFrom]

@[simp] theorem incoming_from (config : UConfig) (header : PTree) (body : Body)
    (origin : Option SessionId) : (incoming config header body origin).from =
      ⟨header.get ["from", "a"] "", header.get ["from", "n"] ""⟩ := by
  simp [incoming, updateFrom]

@[simp] theorem incoming_dest (config : UConfig) (header : PTree) (body : Body)
    (origin : Option SessionId) : (incoming config header body origin).dest =
      ⟨header.get ["to", "a"] "", header.get ["to", "n"] ""⟩ := by
  simp [incoming, updateFrom]

@[simp] theorem incoming_destType (config : UConfig) (header : PTree) (body : Body)
    (origin : Option SessionId) :
    (incoming config header body origin).destType = destTypeOf config.nodeName header := by
  simp [incoming, updateFrom]

/-- The cached fields say what the header says. -/
structure InStep (config : UConfig) (msg : Msg) : Prop where
  sender : msg.from = ⟨msg.header.get ["from", "a"] "", msg.header.get ["from", "n"] ""⟩
  dest : msg.dest = ⟨msg.header.get ["to", "a"] "", msg.header.get ["to", "n"] ""⟩
  destType : msg.destType = destTypeOf config.nodeName msg.header

end Msg

end Uzel
