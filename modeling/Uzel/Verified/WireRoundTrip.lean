import Uzel.Verified.Framing
import Uzel.Foundation.Json

/-! # What is written is what is read

The messages that a process sends are `Built`: made by the outgoing constructor, or forwarded from a
message that an input processor of the process has handed over.  Their headers have no child `body`
and their raw bodies are single lines, so both encoders can be undone.
-/

namespace Uzel.Verified.WireRoundTrip

open Foundation Framing

/-- The dispatcher that keeps a log of what it is handed. -/
def record (header : PTree) (body : Body) (log : List (PTree × Body)) : Outcome (List (PTree × Body)) :=
  .done (log ++ [(header, body)])

/-- A text is read as one message only. -/
theorem record_unique {readJson : List Char → Option PTree} {text : List Char} {frame other : PTree × Body}
    (read : processNewInput readJson record text .fresh [] = .accepted .fresh [frame])
    (again : processNewInput readJson record text .fresh [] = .accepted .fresh [other]) : frame = other := by
  have same := read.symm.trans again
  simp only [ReadResult.accepted.injEq, List.cons.injEq, true_and, and_true] at same
  exact same

/-- A message that an input processor of this process has handed over, also after some handler has
asked for its parsed body. -/
inductive Received (json : JsonCodec) (config : UConfig) : Msg → Prop
  | handed {blocks : List (List Char)} {log : List (PTree × Body)} {verdict : Bool} {header : PTree}
      {body : Body} (origin : Option SessionId)
      (returned : observed (feed json.readJson record blocks .fresh []) = some (log, verdict))
      (member : (header, body) ∈ log) : Received json config (.incoming config header body origin)
  | parsed {msg : Msg} (received : Received json config msg) : Received json config (msg.pbody json).2

/-- The messages that this process sends. -/
inductive Built (json : JsonCodec) (config : UConfig) : Msg → Prop
  | outgoing (dest : Addr) (cname : String) (body : PTree) :
      Built json config (.outgoing config dest cname body)
  | forward (dest : Addr) {other : Msg} (received : Received json config other) :
      Built json config (.forward config dest other)
  | renamed (cname : String) {msg : Msg} (built : Built json config msg) :
      Built json config (msg.setCname cname)

/-- What the encoders rely on. -/
structure Encodable (msg : Msg) : Prop where
  noBodyChild : msg.header.find "body" = none
  oneLine : ∀ bytes, msg.body = .raw bytes → '\n' ∉ bytes

theorem newline_notMem_splitLines {cmd input : List Char} (oneLine : '\n' ∉ cmd) :
    ∀ line ∈ (splitLines cmd input).1, '\n' ∉ line := by
  induction input generalizing cmd with
  | nil => simp [splitLines]
  | cons c input inductionHypothesis =>
    by_cases newline : c = '\n'
    · simp only [splitLines, newline, if_true, List.forall_mem_cons]
      exact ⟨oneLine, inductionHypothesis List.not_mem_nil⟩
    · simp only [splitLines, newline, if_false]
      exact inductionHypothesis (by simp [oneLine, Ne.symm newline])

theorem scan_encodable (readJson : List Char → Option PTree) {header : Option PTree}
    {lines : List (List Char)} (oneLine : ∀ line ∈ lines, '\n' ∉ line)
    (waiting : ∀ tree, header = some tree → tree.find "body" = none) :
    ∀ frame ∈ (scan readJson header lines).1,
      frame.1.find "body" = none ∧ ∀ bytes, frame.2 = .raw bytes → '\n' ∉ bytes := by
  -- for any header that waits: it has no body, else it would have been handed over
  induction lines generalizing header with
  | nil => simp [scan]
  | cons line lines inductionHypothesis =>
    rw [List.forall_mem_cons] at oneLine
    have later := @inductionHypothesis none oneLine.2 (by simp)
    cases header with
    | some header =>
      simp only [scan, List.forall_mem_cons]
      refine ⟨⟨waiting header rfl, ?_⟩, later⟩
      rintro bytes ⟨rfl⟩
      exact oneLine.1
    | none =>
      simp only [scan]
      cases parsed : readJson line with
      | none => simp
      | some header =>
        cases embedded : header.find "body" with
        | none =>
          have separate := @inductionHypothesis (some header) oneLine.2
            (by rintro tree ⟨rfl⟩; exact embedded)
          simpa [embedded] using separate
        | some body =>
          simp only [embedded, List.forall_mem_cons]
          exact ⟨⟨PTree.find_erase_self "body" header, by simp⟩, later⟩

theorem foldl_record (frames log : List (PTree × Body)) :
    frames.foldl (fun log frame => log ++ [(frame.1, frame.2)]) log = log ++ frames := by
  induction frames generalizing log with
  | nil => simp
  | cons frame frames inductionHypothesis => simp [inductionHypothesis]

theorem encodable_received {json : JsonCodec} {config : UConfig} {msg : Msg}
    (received : Received json config msg) : Encodable msg := by
  induction received with
  | @handed blocks log verdict header body origin returned member =>
    have scanned := feed_eq_scan json.readJson (fun log header body => log ++ [(header, body)])
      blocks [] none ([] : List (PTree × Body))
    have logged : log = (scan json.readJson none (splitLines [] blocks.flatten).1).1 := by
      have same := returned.symm.trans (congrArg observed scanned)
      rw [observed_finishScan, foldl_record] at same
      simpa using congrArg (Option.map Prod.fst) same
    have oneLine := @newline_notMem_splitLines [] blocks.flatten List.not_mem_nil
    have encodable := @scan_encodable json.readJson none _ oneLine (by simp) _ (logged ▸ member)
    exact ⟨by simpa using encodable.1, by simpa using encodable.2⟩
  | @parsed msg _ inductionHypothesis =>
    obtain ⟨noBodyChild, oneLine⟩ := inductionHypothesis
    unfold Msg.pbody
    split
    · exact ⟨noBodyChild, oneLine⟩
    · split <;> exact ⟨noBodyChild, by simp⟩

theorem encodable_put {msg : Msg} (encodable : Encodable msg) {key : String} (different : "body" ≠ key)
    (path : List String) (value : String) :
    Encodable { msg with header := msg.header.put (key :: path) value } :=
  ⟨by rw [PTree.find_put_ne different]; exact encodable.noBodyChild, encodable.oneLine⟩

theorem encodable_setDest {config : UConfig} {msg : Msg} (encodable : Encodable msg) (dest : Addr) :
    Encodable (msg.setDest config dest) := by
  constructor
  · unfold Msg.setDest
    dsimp only
    split_ifs <;> simp [PTree.find_put_ne, encodable.noBodyChild]
  · intro bytes
    unfold Msg.setDest
    dsimp only
    split_ifs <;> simpa using encodable.oneLine bytes

theorem encodable_setFromLocal {config : UConfig} {msg : Msg} (encodable : Encodable msg) :
    Encodable (msg.setFromLocal config) :=
  ⟨by simp [Msg.setFromLocal, PTree.find_put_ne, encodable.noBodyChild], encodable.oneLine⟩

theorem encodable_built {json : JsonCodec} {config : UConfig} {msg : Msg}
    (built : Built json config msg) : Encodable msg := by
  induction built with
  | outgoing dest cname body =>
    have empty : Encodable ⟨.empty, .tree body, .service, .none, .none, false, none⟩ :=
      ⟨rfl, by simp⟩
    exact encodable_put (encodable_setDest (encodable_setFromLocal empty) dest) (by decide) [] cname
  | forward dest received =>
    exact encodable_setDest (encodable_setFromLocal (encodable_received received)) dest
  | renamed cname _ inductionHypothesis => exact encodable_put inductionHypothesis (by decide) [] cname

theorem read_twoLines {json : JsonCodec} {header : PTree} {line body : List Char}
    (read : json.readJson line = some header) (noBodyChild : header.find "body" = none)
    (headerLine : '\n' ∉ line) (bodyLine : '\n' ∉ body) :
    processNewInput json.readJson record (line ++ '\n' :: (body ++ ['\n'])) .fresh [] =
      .accepted .fresh [(header, .raw body)] := by
  have lines : splitLines [] (line ++ '\n' :: (body ++ ['\n'])) = ([line, body], []) := by
    rw [splitLines_line headerLine, splitLines_line bodyLine]
    rfl
  rw [processNewInput_eq_deliver]
  simp only [InputProcessor.fresh, lines, scan, read, noBodyChild]
  rfl

theorem read_oneLine {json : JsonCodec} {tree header body : PTree} {line : List Char}
    (read : json.readJson line = some tree) (embedded : tree.find "body" = some body)
    (erased : tree.erase "body" = header) (oneLine : '\n' ∉ line) :
    processNewInput json.readJson record (line ++ ['\n']) .fresh [] =
      .accepted .fresh [(header, .tree body)] := by
  have lines : splitLines [] (line ++ ['\n']) = ([line], []) := by
    rw [splitLines_line oneLine]
    rfl
  rw [processNewInput_eq_deliver]
  simp only [InputProcessor.fresh, lines, scan, read, embedded, erased]
  rfl

/-- The trees that `str` passes to the JSON writer are accepted by it. -/
def TreesWritable (msg : Msg) : Prop :=
  msg.header.Writable ∧ ∀ tree, msg.body = .tree tree → tree.Writable

end Uzel.Verified.WireRoundTrip
