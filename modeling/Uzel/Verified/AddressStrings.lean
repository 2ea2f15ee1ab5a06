import Uzel.Msg

/-! # Addresses as text

An address is written `<appname>[@<nodename>]`; an address without a node means the node itself, and
`*` stands for every application or every node.  `setDest` writes the destination into the header only
when both parts are there, so a message for an application without a node has no destination at all,
and `updateDest` takes it for a service message.  `addressed_iff` says that with a node the message goes
where the address says.
-/

namespace Uzel.Verified.AddressStrings

open Foundation

/-- `<appname>[@<nodename>]` -/
def addressText (appname : String) : Option String → String
  | none => appname
  | some nodename => appname ++ "@" ++ nodename

/-- The node that the node part of an address stands for, or the mask. -/
def resolved (config : UConfig) (nodename : String) : String :=
  if nodename = "localhost" then config.nodeName else nodename

/-- The kind of destination of an address, by its application and its resolved node. -/
def kindOf (config : UConfig) (appname : String) : Option String → DestType
  | none => .local
  | some node =>
    if node = config.nodeName then (if appname = "*" then .localbroadcast else .local)
    else if node = "*" then .broadcast
    else .remote

/-- An address stands for this application, and maybe for others too. -/
def Includes (config : UConfig) (appname : String) : Option String → Prop
  | none => appname = config.appName
  | some node =>
    (node = config.nodeName ∨ node = "*") ∧ (appname = config.appName ∨ appname = "*")

/-- The message goes to the application on the resolved node. -/
structure Addressed (config : UConfig) (appname : String) (target : Option String) (msg : Msg) :
    Prop where
  app : msg.dest.app = appname
  node : msg.dest.node = target.getD ""
  destType : msg.destType = kindOf config appname target
  toMe : msg.toMe = true ↔ Includes config appname target
  notService : msg.destType ≠ .service

/-- The name of a message has no part in where it goes. -/
theorem addressed_setCname {config : UConfig} {appname : String} {target : Option String} {msg : Msg}
    {cname : String} :
    Addressed config appname target (msg.setCname cname) ↔ Addressed config appname target msg := by
  constructor
  · exact fun addressed => ⟨addressed.app, addressed.node, addressed.destType, addressed.toMe,
      addressed.notService⟩
  · exact fun addressed => ⟨addressed.app, addressed.node, addressed.destType, addressed.toMe,
      addressed.notService⟩

theorem idxOf_first {before : List Char} {c : Char} (absent : c ∉ before) (after : List Char) :
    (before ++ c :: after).idxOf? c = some before.length := by
  rw [List.idxOf?_eq_some_iff]
  refine ⟨by simp, by simp, ?_⟩
  intro j earlier same
  rw [List.getElem_append_left earlier] at same
  exact absent (same ▸ List.getElem_mem earlier)

/-- The text up to the first `@` is the application, and what follows is the node. -/
theorem ofString_addressText {appname : String} (plain : '@' ∉ appname.toList)
    (nodename : Option String) :
    Addr.ofString (addressText appname nodename) = ⟨appname, nodename.getD ""⟩ := by
  cases nodename with
  | none =>
    have absent : appname.toList.idxOf? '@' = none := List.idxOf?_eq_none_iff.mpr plain
    simp [Addr.ofString, addressText, absent, Addr.ofParts]
  | some nodename =>
    have text : (addressText appname (some nodename)).toList =
        appname.toList ++ '@' :: nodename.toList := by
      simp [addressText]
    simp [Addr.ofString, text, idxOf_first plain, Addr.ofParts]

section Outgoing

variable {config : UConfig} {dest : Addr} (cname : String) (body : PTree)

/-- The destination of a message is what `setDest` has put into the header. -/
theorem outgoing_given (named : dest.app ≠ "") (given : dest.node ≠ "") :
    ∃ msg : Msg, msg.header.get ["to", "a"] "" = dest.app ∧
      msg.header.get ["to", "n"] "" = resolved config dest.node ∧
      Msg.outgoing config dest cname body = (msg.updateDest config).setCname cname := by
  refine ⟨_, ?_, ?_, by rw [Msg.outgoing, Msg.setDest, if_pos ⟨named, given⟩]⟩
  · exact PTree.get_put_self _ _ _ _
  · rw [PTree.get_put_sibling (by decide), PTree.get_put_self, resolved]

/-- An address that lacks one of its parts does not get into the header. -/
theorem outgoing_omitted (lacks : dest.app = "" ∨ dest.node = "") :
    (Msg.outgoing config dest cname body).destType = .service := by
  have incomplete : ¬ (dest.app ≠ "" ∧ dest.node ≠ "") := by
    rintro ⟨named, given⟩
    exact lacks.elim named given
  have absent : ∀ key, ((PTree.empty.put ["from", "n"] config.nodeName).put ["from", "a"]
      config.appName).get ["to", key] "" = "" := by
    intro key
    rw [PTree.get_put_ne (by decide), PTree.get_put_ne (by decide)]
    rfl
  rw [Msg.outgoing, Msg.setDest, if_neg incomplete]
  show (Msg.updateDest config _).destType = .service
  rw [Msg.updateDest_destType]
  simp [Msg.destTypeOf, Msg.setFromLocal, absent]

end Outgoing

/-- A header with an application and a node is understood as an address.  When the own node has no name,
its mask for all applications is taken for a single one. -/
theorem addressed_updateDest {config : UConfig} {appname target : String} {msg : Msg}
    (named : appname ≠ "") (unnamed : target = "" → config.nodeName = "")
    (app : msg.header.get ["to", "a"] "" = appname) (node : msg.header.get ["to", "n"] "" = target) :
    Addressed config appname (some target) (msg.updateDest config) ↔ (target = "" → appname ≠ "*") := by
  have dest : (msg.updateDest config).dest = ⟨appname, target⟩ := by
    rw [Msg.updateDest_dest, app, node]
  by_cases empty : target = ""
  · have own : target = config.nodeName := empty.trans (unnamed empty).symm
    have kind : (msg.updateDest config).destType = .local := by
      simp [Msg.destTypeOf, app, node, named, empty]
    have mine : (msg.updateDest config).toMe = (appname == config.appName) := by
      simp [Msg.updateDest, app, node, named, empty]
    constructor
    · intro addressed _ mask
      have stated := addressed.destType
      rw [kind, kindOf, if_pos own, if_pos mask] at stated
      cases stated
    · intro single
      refine ⟨by rw [dest], by rw [dest]; rfl, ?_, ?_, by rw [kind]; decide⟩
      · rw [kind, kindOf, if_pos own, if_neg (single empty)]
      · simp [mine, Includes, own, single empty]
  · refine ⟨fun _ isEmpty => absurd isEmpty empty, fun _ => ?_⟩
    have kind : (msg.updateDest config).destType = kindOf config appname (some target) := by
      simp [Msg.destTypeOf, app, node, empty, kindOf]
    have mine : (msg.updateDest config).toMe = true ↔ Includes config appname (some target) := by
      simp only [Msg.updateDest, app, node, empty, and_false, if_false, Includes]
      by_cases own : target = config.nodeName
      · by_cases mask : appname = "*"
        · simp [own, mask]
        · simp [own, mask]
      · by_cases everywhere : target = "*"
        · subst everywhere
          simp [own]
        · simp [own, everywhere]
    refine ⟨by rw [dest], by rw [dest]; rfl, kind, mine, ?_⟩
    rw [kind, kindOf]
    split_ifs <;> decide

/-- A message for an address goes where the address says exactly when the address has a node; the node
itself must have a name where the address is the mask of its applications. -/
theorem addressed_iff (config : UConfig) {appname : String} (named : appname ≠ "")
    (plain : '@' ∉ appname.toList) (nodename : Option String) (cname : String) (body : PTree) :
    Addressed config appname (nodename.map (resolved config))
        (.outgoing config (.ofString (addressText appname nodename)) cname body) ↔
      ∃ name, nodename = some name ∧ name ≠ "" ∧
        (name = "localhost" → appname = "*" → config.nodeName ≠ "") := by
  rw [ofString_addressText plain]
  by_cases given : nodename.getD "" = ""
  · constructor
    · intro addressed
      exact absurd (outgoing_omitted cname body (.inr given)) addressed.notService
    · rintro ⟨name, rfl, some_, -⟩
      exact absurd given some_
  · obtain ⟨msg, app, node, same⟩ :=
      @outgoing_given config ⟨appname, nodename.getD ""⟩ cname body named given
    cases nodename with
    | none => exact absurd rfl given
    | some name =>
      have unnamed : resolved config name = "" → name = "localhost" ∧ config.nodeName = "" := by
        intro empty
        by_cases host : name = "localhost"
        · exact ⟨host, by rwa [resolved, if_pos host] at empty⟩
        · exact absurd (by rwa [resolved, if_neg host] at empty) given
      rw [same, addressed_setCname]
      refine (addressed_updateDest named (fun empty => (unnamed empty).2) app node).trans ?_
      constructor
      · intro single
        refine ⟨name, rfl, given, ?_⟩
        rintro rfl mask empty
        exact single (by rw [resolved, if_pos rfl, empty]) mask
      · rintro ⟨_, ⟨rfl⟩, -, single⟩ empty mask
        exact single (unnamed empty).1 mask (unnamed empty).2

/-- The message is for the echo application of a node that is not the own one. -/
theorem addressed_remote : Addressed ⟨"alpha", "usender"⟩ "uecho" (some "beta")
    (.outgoing ⟨"alpha", "usender"⟩ (.ofString (addressText "uecho" (some "beta"))) "ping" .empty) :=
  (addressed_iff ⟨"alpha", "usender"⟩ (by decide) (by decide) (some "beta") "ping" .empty).mpr
    ⟨"beta", rfl, by decide, by decide⟩

/-- A message for an application of the own node, without the name of the node, goes nowhere. -/
theorem application_alone_not_addressed :
    ¬ Addressed ⟨"alpha", "usender"⟩ "uecho" none
      (.outgoing ⟨"alpha", "usender"⟩ (.ofString "uecho") "ping" .empty) := by
  intro addressed
  exact addressed.notService (by decide)

end Uzel.Verified.AddressStrings
