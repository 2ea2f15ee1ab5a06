import Uzel.SocketServer
import Uzel.Verified.OutputRules
import Uzel.Verified.RefusedConnection
import Uzel.Verified.RelayTransparency

/-! # What a server writes can be read

Every text that a session of a userver hands to its socket is one message for the input processor of
the peer, and the stream of these texts is read as these messages, one by one, wherever it is cut into
blocks and wherever it ends.  That holds whatever the peers of the server write themselves: what cannot
be written as a message of the wire format is not queued, and the line that a body came in is not
broken up when it is forwarded.
-/

namespace Uzel.Verified.OutputFraming

open Foundation Framing WireRoundTrip RelayTransparency Protocol OutputRules

/-- A fresh input processor reads the text as this message and is as fresh as before. -/
def Single (json : JsonCodec) (text : List Char) (frame : PTree × Body) : Prop :=
  processNewInput json.readJson record text .fresh [] = .accepted .fresh [frame]

/-! ## Texts on their own -/

section Texts

variable {json : JsonCodec} {config : UConfig}

/-- The input processor on a whole stream. -/
theorem processNewInput_parse (text : List Char) :
    processNewInput json.readJson record text .fresh [] =
      finishScan (partialLine text) (parse json text).2 (parse json text).1 := by
  have delivered := deliver_done (fun log header body => log ++ [(header, body)]) (parse json text).1
    ([] : List (PTree × Body)) (finishScan (partialLine text) (parse json text).2)
  rw [foldl_record, List.nil_append] at delivered
  rw [processNewInput_eq_deliver]
  exact delivered

theorem single_iff {text : List Char} {frame : PTree × Body} :
    Single json text frame ↔ parse json text = ([frame], some none) ∧ partialLine text = [] := by
  rw [Single, processNewInput_parse]
  rcases parse json text with ⟨frames, waiting⟩
  cases waiting with
  | none => simp [finishScan]
  | some header =>
    simp only [finishScan, InputProcessor.fresh, ReadResult.accepted.injEq, InputProcessor.mk.injEq,
      AccuLine.mk.injEq, Prod.mk.injEq, Option.some.injEq]
    tauto

theorem single_own (lawful : json.Lawful) {text : List Char} (own : Own json config text) :
    ∃ frame, Single json text frame := by
  obtain ⟨notice, encoded⟩ := own
  obtain ⟨text', frame, encoded', _, read⟩ := @Notice.text_eq json config lawful notice
  obtain rfl : text = text' := Option.some.inj (encoded.symm.trans encoded')
  have alone := read []
  rw [List.append_nil] at alone
  exact ⟨frame, single_iff.mpr alone⟩

theorem single_charvec (lawful : json.Lawful) {msg : Msg} (encodable : Encodable msg) {text : List Char}
    (encoded : msg.charvec json = some text) : ∃ frame, Single json text frame := by
  obtain ⟨bytes, body, encoded', read, _⟩ :=
    relays_of_writable lawful encodable rfl rfl (charvec_writable lawful encoded)
  obtain rfl : text = bytes := Option.some.inj (encoded.symm.trans encoded')
  exact ⟨_, read⟩

theorem encodable_dispatched {msg left : Msg} (encodable : Encodable msg) (dispatched : Dispatched json msg left) :
    Encodable left := by
  rcases dispatched with rfl | ⟨_, _, rfl⟩
  · exact encodable
  · unfold Msg.pbody
    split
    · exact encodable
    -- what the parser leaves is a tree
    · split <;> exact ⟨encodable.noBodyChild, by simp⟩

/-- A stream of texts is read as their messages. -/
theorem parse_texts {texts : List (List Char)} {frames : List (PTree × Body)}
    (each : List.Forall₂ (Single json) texts frames) :
    parse json texts.flatten = (frames, some none) ∧ partialLine texts.flatten = [] := by
  induction each with
  | nil => exact ⟨rfl, rfl⟩
  | @cons text frame texts frames first _ inductionHypothesis =>
    obtain ⟨parsed, wholeLines⟩ := single_iff.mp first
    obtain ⟨later, laterLines⟩ := inductionHypothesis
    constructor
    · rw [List.flatten_cons, parse_append text texts.flatten parsed, wholeLines]
      show ([frame] ++ (parse json texts.flatten).1, (parse json texts.flatten).2) = _
      rw [later]
      rfl
    · rw [List.flatten_cons, partialLine_append, wholeLines]
      exact laterLines

theorem frames_of_texts {texts : List (List Char)} (each : ∀ text ∈ texts, ∃ frame, Single json text frame) :
    ∃ frames, List.Forall₂ (Single json) texts frames := by
  induction texts with
  | nil => exact ⟨[], .nil⟩
  | cons text texts inductionHypothesis =>
    rw [List.forall_mem_cons] at each
    obtain ⟨frame, first⟩ := each.1
    obtain ⟨frames, later⟩ := inductionHypothesis each.2
    exact ⟨frame :: frames, .cons first later⟩

end Texts

/-! ## Input -/

/-- What a processor keeps between two blocks: the beginning of a line, and a header without a body. -/
structure WellRead (processor : InputProcessor) : Prop where
  oneLine : '\n' ∉ processor.acculine.cmd
  separate : ∀ tree, processor.header = some tree → tree.find "body" = none

section Input

variable {json : JsonCodec}

theorem newline_notMem_unfinished {cmd input : List Char} (oneLine : '\n' ∉ cmd) :
    '\n' ∉ (splitLines cmd input).2 := by
  induction input generalizing cmd with
  | nil => exact oneLine
  | cons c input inductionHypothesis =>
    by_cases newline : c = '\n'
    · simp only [splitLines, newline, if_true]
      exact inductionHypothesis List.not_mem_nil
    · simp only [splitLines, newline, if_false]
      exact inductionHypothesis (by simp [oneLine, Ne.symm newline])

theorem scan_separate (readJson : List Char → Option PTree) {header waiting : Option PTree}
    {lines : List (List Char)} (separate : ∀ tree, header = some tree → tree.find "body" = none)
    (ends : (scan readJson header lines).2 = some waiting) :
    ∀ tree, waiting = some tree → tree.find "body" = none := by
  induction lines generalizing header with
  | nil =>
    cases ends
    exact separate
  | cons line lines inductionHypothesis =>
    cases header with
    | some header => exact @inductionHypothesis none (by simp) ends
    | none =>
      simp only [scan] at ends
      cases parsed : readJson line with
      | none => simp [parsed] at ends
      | some header =>
        cases embedded : header.find "body" with
        | none =>
          simp only [parsed, embedded] at ends
          exact @inductionHypothesis (some header) (by rintro tree ⟨rfl⟩; exact embedded) ends
        | some body =>
          simp only [parsed, embedded] at ends
          exact @inductionHypothesis none (by simp) ends

theorem WellRead.frames {processor : InputProcessor} (wellRead : WellRead processor) (block : List Char) :
    ∀ frame ∈ (Server.framesOf json block processor).1,
      frame.1.find "body" = none ∧ ∀ bytes, frame.2 = .raw bytes → '\n' ∉ bytes :=
  scan_encodable json.readJson (newline_notMem_splitLines wellRead.oneLine) wellRead.separate

theorem WellRead.next {processor : InputProcessor} (wellRead : WellRead processor) {block : List Char}
    {header : Option PTree} (ends : (Server.framesOf json block processor).2 = some header) :
    WellRead ⟨⟨(splitLines processor.acculine.cmd block).2, []⟩, header⟩ :=
  ⟨newline_notMem_unfinished wellRead.oneLine, scan_separate json.readJson wellRead.separate ends⟩

end Input

/-! ## The server -/

/-- Every text is a message of its own, whoever it goes to. -/
def singlePolicy (json : JsonCodec) : Policy where
  session _ text := ∃ frame, Single json text frame
  channel _ text := ∃ frame, Single json text frame

/-- The texts of a server are messages, and its sessions read messages. -/
structure Framed (json : JsonCodec) (s : Server) : Prop where
  utters : Utters (singlePolicy json) s
  blank : s.Blank
  processors : ∀ sid < s.nextSession, WellRead (s.store.session sid).processor

section Server

variable {json : JsonCodec} {nodeName : String} {pid : Nat} {s t : Server} {sid : SessionId}

theorem singlePolicy_fair (lawful : json.Lawful) {config : UConfig} : (singlePolicy json).Fair json config :=
  ⟨fun _ _ own => single_own lawful own, fun _ _ single => single⟩

theorem utters_frame (lawful : json.Lawful) {config : UConfig} (utters : Utters (singlePolicy json) s)
    (sid : SessionId) {header : PTree} {body : Body} (noBodyChild : header.find "body" = none)
    (oneLine : ∀ bytes, body = .raw bytes → '\n' ∉ bytes) :
    (s.dispatchMsg json config sid header body).All (Utters (singlePolicy json)) := by
  have encodable : Encodable (.incoming config header body (some sid)) := ⟨by simpa, by simpa⟩
  apply utters_dispatchMsg lawful (singlePolicy_fair lawful) utters rfl
  · exact fun _ _ _ _ _ _ single => single
  · exact fun _ _ _ _ single => single
  · exact fun _ _ _ _ _ single => single
  · exact fun _ _ _ _ _ _ _ _ _ _ _ _ _ single => single
  · intro _ left dispatched
    have single := fun text => @single_charvec json lawful left (encodable_dispatched encodable dispatched) text
    exact ⟨fun _ _ _ _ => single, fun _ _ => single⟩

theorem readFailed_processor (sid other : SessionId) (s : Server) :
    ((s.readFailed sid).store.session other).processor = (s.store.session other).processor := by
  rw [Server.readFailed, FirstTexts.stop_same (·.processor) (fun _ => rfl)]
  exact @Sessions.set_congr _ (·.processor) s.store sid { s.store.session sid with reading := .idle } rfl other

theorem framed_input (lawful : json.Lawful) (framed : Framed json s) {block : List Char}
    (returned : s.read json ⟨nodeName, "userver"⟩ sid block = some t) : Framed json t := by
  have created : sid < s.nextSession := by
    simp only [Server.read] at returned
    split at returned
    next enabled => exact enabled.1
    next => cases returned
  obtain ⟨events, run⟩ := @Server.read_exec json ⟨nodeName, "userver"⟩ lawful 0 sid block s t returned
  have goesOn := @RefusedConnection.goesOn_exec json (fun _ => nodeName) (fun _ => 0) .lower s t sid lawful
    framed.blank created events run.ofRead run.executed
  have blank := (always_of_invariant (fun blank next => Server.blank_step lawful blank next)
    framed.blank events).last run.executed
  have wellRead := framed.processors sid created
  have kept := @Server.read_keeps json ⟨nodeName, "userver"⟩
    (fun u => Utters (singlePolicy json) u ∧
      (u.store.session sid).processor = (s.store.session sid).processor) s t sid block ⟨framed.utters, rfl⟩
    (fun frame member u holds =>
      have known := wellRead.frames block frame member
      Outcome.All.and (utters_frame lawful holds.1 sid known.1 known.2)
        ((Server.dispatchMsg_carries Session.carried_processor (fun _ _ _ => rfl) lawful sid frame.1 frame.2 u).mono
          fun _ carries => (carries.2 sid).trans holds.2)) returned
  obtain ⟨u, ⟨utters, same⟩, ends⟩ := kept
  have ended : Utters (singlePolicy json) t ∧ WellRead (t.store.session sid).processor := by
    rcases ends with rfl | ⟨header, waiting, rfl⟩
    · refine ⟨utters_readFailed utters sid, ?_⟩
      rw [readFailed_processor, same]
      exact wellRead
    · refine ⟨utters.of_store (speaks_set utters.sessions
        ((utters.sessions sid).of_same rfl rfl (List.Subset.refl _))), ?_⟩
      rw [RoleAssignment.readAgain_self]
      exact wellRead.next waiting
  refine ⟨ended.1, blank, ?_⟩
  intro other below
  by_cases itself : other = sid
  · exact itself ▸ ended.2
  · by_cases old : other < s.nextSession
    · rw [(goesOn.unread other old itself).2]
      exact framed.processors other old
    · rw [(goesOn.fresh other below (Nat.le_of_not_lt old)).2]
      exact ⟨List.not_mem_nil, by simp [InputProcessor.fresh]⟩

theorem framed_step (lawful : json.Lawful) (framed : Framed json s) {e : SocketEvent}
    (next : s.socketStep json ⟨nodeName, "userver"⟩ pid e = some t) : Framed json t := by
  cases e with
  | input sid block => exact framed_input lawful framed next
  | other e =>
    have step := Server.socketStep_other next
    have unread : ∀ sid, sid ∉ RefusedConnection.reader e := by
      intro sid member
      cases e with
      | received caller header body => cases next
      | readAgain caller processor => cases next
      | _ => cases member
    have goesOn := @RefusedConnection.goesOn_step json (fun _ => nodeName) (fun _ => pid) .lower s t lawful
      framed.blank e (fun sid member => absurd member (unread sid)) step
    have utters : Utters (singlePolicy json) t := by
      apply utters_step (singlePolicy_fair lawful) framed.utters step
      rintro sid header body rfl
      cases next
    refine ⟨utters, Server.blank_step lawful framed.blank step, ?_⟩
    intro sid below
    by_cases old : sid < s.nextSession
    · rw [(goesOn.unread sid old (unread sid)).2]
      exact framed.processors sid old
    · rw [(goesOn.fresh sid below (Nat.le_of_not_lt old)).2]
      exact ⟨List.not_mem_nil, by simp [InputProcessor.fresh]⟩

theorem framed_initial (now : Nat) (remotes : List String) :
    Framed json (.initial ⟨nodeName, "userver"⟩ now remotes) := by
  refine ⟨⟨fun _ => speaks_fresh rfl rfl, ?_⟩, fun _ _ => rfl, fun sid below => absurd below (Nat.not_lt_zero sid)⟩
  intro node remote registered
  cases registered

end Server

end Uzel.Verified.OutputFraming
