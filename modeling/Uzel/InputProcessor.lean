import Uzel.Foundation.Outcome
import Uzel.Msg

/-! # Reading messages off a byte stream (`acculine.h`, `inputprocessor.cpp`)

`AccuLine` cuts blocks of the stream into lines and keeps the incomplete last line for the next
block.  `InputProcessor` pairs header lines with body lines and hands each message to
`session::dispatchMsg`, which is a parameter here: it acts on a state and may return, raise or never
return.

`processNewInput_eq_deliver` separates the two concerns: the frames that a block completes do not
depend on the dispatcher, and the dispatcher is run on them one after the other.
-/

namespace Uzel

open Foundation

structure AccuLine where
  /-- `m_cmd`: the beginning of a line from earlier blocks -/
  cmd : List Char
  /-- `m_curline`: what is left of the current block -/
  curline : List Char
deriving DecidableEq

namespace AccuLine

def addNewInput (inputstr : List Char) (acculine : AccuLine) : AccuLine :=
  { acculine with curline := inputstr }

def getNextCmd (acculine : AccuLine) : Option (List Char) × AccuLine :=
  if acculine.curline.isEmpty then (none, acculine)
  else if '\n' ∈ acculine.curline then
    let newcmd := acculine.curline.takeWhile (· ≠ '\n')
    (some (acculine.cmd ++ newcmd), ⟨[], acculine.curline.drop (newcmd.length + 1)⟩)
  else
    (none, ⟨acculine.cmd ++ acculine.curline, []⟩)

end AccuLine

structure InputProcessor where
  acculine : AccuLine
  /-- `m_header`: the header of a message whose body has not been read yet -/
  header : Option PTree

/-- A processor as a session starts with. -/
def InputProcessor.fresh : InputProcessor := ⟨⟨[], []⟩, none⟩

/-- How `processNewInput` ends: it returns true or false, an exception leaves it, or it does not
return.  A processor is not used again after it has returned false. -/
inductive ReadResult (σ : Type*) where
  | accepted (processor : InputProcessor) (state : σ)
  | rejected (state : σ)
  | raised (state : σ)
  | hung

section ProcessNewInput

variable {σ : Type*} (readJson : List Char → Option PTree) (dispatchMsg : PTree → Body → σ → Outcome σ)

/-- The loop over the lines of the current block.  Every turn that gets a line takes its line feed
off the block, so a block of `n` characters ends the loop within `n + 1` turns. -/
def processLoop : Nat → InputProcessor → σ → ReadResult σ
  | 0, processor, state => .accepted processor state
  | fuel + 1, processor, state =>
    match processor.acculine.getNextCmd with
    | (none, acculine) => .accepted { processor with acculine } state
    | (some line, acculine) =>
      match processor.header with
      | none =>
        match readJson line with
        | none => .rejected state
        | some header =>
          match header.find "body" with
          | none => processLoop fuel ⟨acculine, some header⟩ state
          | some body =>
            -- this call is inside the `try` block, `catch (...)` returns false
            match dispatchMsg (header.erase "body") (.tree body) state with
            | .done state => processLoop fuel ⟨acculine, none⟩ state
            | .raised state => .rejected state
            | .hung => .hung
      | some header =>
        -- and this one is outside of it
        match dispatchMsg header (.raw line) state with
        | .done state => processLoop fuel ⟨acculine, none⟩ state
        | .raised state => .raised state
        | .hung => .hung

def processNewInput (input : List Char) (processor : InputProcessor) (state : σ) : ReadResult σ :=
  processLoop readJson dispatchMsg (input.length + 1)
    { processor with acculine := processor.acculine.addNewInput input } state

end ProcessNewInput

/-! ## Lines -/

/-- The lines that `input` completes after the partial line `cmd`, and the partial line after it. -/
def splitLines : List Char → List Char → List (List Char) × List Char
  | cmd, [] => ([], cmd)
  | cmd, c :: input =>
    if c = '\n' then (cmd :: (splitLines [] input).1, (splitLines [] input).2)
    else splitLines (cmd ++ [c]) input

theorem splitLines_append (cmd first second : List Char) :
    splitLines cmd (first ++ second) =
      ((splitLines cmd first).1 ++ (splitLines (splitLines cmd first).2 second).1,
        (splitLines (splitLines cmd first).2 second).2) := by
  induction first generalizing cmd with
  | nil => simp [splitLines]
  | cons c first inductionHypothesis =>
    by_cases newline : c = '\n'
    · simp [splitLines, newline, inductionHypothesis]
    · simp [splitLines, newline, inductionHypothesis]

theorem splitLines_line {line : List Char} (oneLine : '\n' ∉ line) (cmd rest : List Char) :
    splitLines cmd (line ++ '\n' :: rest) =
      ((cmd ++ line) :: (splitLines [] rest).1, (splitLines [] rest).2) := by
  induction line generalizing cmd with
  | nil => simp [splitLines]
  | cons c line inductionHypothesis =>
    simp only [List.mem_cons, not_or] at oneLine
    simp [splitLines, Ne.symm oneLine.1, inductionHypothesis oneLine.2]

theorem splitLines_of_notMem {input : List Char} (oneLine : '\n' ∉ input) (cmd : List Char) :
    splitLines cmd input = ([], cmd ++ input) := by
  induction input generalizing cmd with
  | nil => simp [splitLines]
  | cons c input inductionHypothesis =>
    simp only [List.mem_cons, not_or] at oneLine
    simp [splitLines, Ne.symm oneLine.1, inductionHypothesis oneLine.2]

/-- `splitLines` is `std::string` splitting at the line feeds, the unterminated tail apart. -/
theorem splitLines_eq_splitOn (cmd input : List Char) (oneLine : '\n' ∉ cmd) :
    (splitLines cmd input).1 = ((cmd ++ input).splitOn '\n').dropLast := by
  induction input generalizing cmd with
  | nil =>
    simp only [splitLines, List.append_nil]
    rw [List.splitOn_eq_singleton oneLine]
    rfl
  | cons c input inductionHypothesis =>
    by_cases newline : c = '\n'
    · subst newline
      rw [List.splitOn_append_cons_self_of_not_mem oneLine,
        List.dropLast_cons_of_ne_nil (List.splitOn_ne_nil _ _)]
      simpa [splitLines] using inductionHypothesis [] List.not_mem_nil
    · have extended : '\n' ∉ cmd ++ [c] := by simp [oneLine, Ne.symm newline]
      simpa [splitLines, newline] using inductionHypothesis (cmd ++ [c]) extended

theorem takeWhile_line {line : List Char} (oneLine : '\n' ∉ line) (rest : List Char) :
    (line ++ '\n' :: rest).takeWhile (· ≠ '\n') = line := by
  rw [List.takeWhile_append_of_pos]
  · simp
  · intro c member
    simpa using fun same : c = '\n' => oneLine (same ▸ member)

/-- One call of `getNextCmd` takes the first line off the block, or what is left of it when it
holds no complete line. -/
theorem getNextCmd_cases (acculine : AccuLine) :
    (acculine.getNextCmd = (none, ⟨(splitLines acculine.cmd acculine.curline).2, []⟩) ∧
        (splitLines acculine.cmd acculine.curline).1 = []) ∨
      ∃ line rest, acculine.getNextCmd = (some line, ⟨[], rest⟩) ∧
        rest.length < acculine.curline.length ∧
        splitLines acculine.cmd acculine.curline =
          (line :: (splitLines [] rest).1, (splitLines [] rest).2) := by
  obtain ⟨cmd, curline⟩ := acculine
  unfold AccuLine.getNextCmd
  dsimp only
  split_ifs with empty newline
  · left
    rw [List.isEmpty_iff.mp empty]
    exact ⟨rfl, rfl⟩
  · right
    obtain ⟨line, rest, rfl, oneLine⟩ := List.eq_append_cons_of_mem newline
    refine ⟨cmd ++ line, rest, ?_, by simp; omega, splitLines_line oneLine cmd rest⟩
    rw [takeWhile_line oneLine]
    simp
  · left
    rw [splitLines_of_notMem newline]
    exact ⟨rfl, rfl⟩

/-! ## Frames -/

/-- What the processor makes of complete lines, with the header that waits for its body: the pairs
that are handed to `dispatchMsg`, and the header that waits at the end, or `none` if a header line is
not JSON. -/
def scan (readJson : List Char → Option PTree) :
    Option PTree → List (List Char) → List (PTree × Body) × Option (Option PTree)
  | header, [] => ([], some header)
  | none, line :: lines =>
    match readJson line with
    | none => ([], none)
    | some header =>
      match header.find "body" with
      | none => scan readJson (some header) lines
      | some body =>
        ((header.erase "body", .tree body) :: (scan readJson none lines).1,
          (scan readJson none lines).2)
  | some header, line :: lines =>
    ((header, .raw line) :: (scan readJson none lines).1, (scan readJson none lines).2)

theorem scan_append (readJson : List Char → Option PTree) (header : Option PTree)
    (first second : List (List Char)) :
    scan readJson header (first ++ second) =
      match scan readJson header first with
      | (frames, some waiting) =>
        (frames ++ (scan readJson waiting second).1, (scan readJson waiting second).2)
      | (frames, none) => (frames, none) := by
  induction first generalizing header with
  | nil => simp [scan]
  | cons line first inductionHypothesis =>
    cases header with
    -- a header waits, so the first line is its body
    | some header =>
      simp only [List.cons_append, scan, inductionHypothesis]
      split <;> simp_all
    | none =>
      simp only [List.cons_append, scan]
      cases parsed : readJson line with
      | none => rfl
      | some header =>
        cases embedded : header.find "body" with
        | none => simpa [embedded] using inductionHypothesis (some header)
        | some body =>
          simp only [embedded, inductionHypothesis]
          split <;> simp_all

section Deliver

variable {σ : Type*} (readJson : List Char → Option PTree) (dispatchMsg : PTree → Body → σ → Outcome σ)

/-- The dispatcher is run on the frames in order.  An exception of a one-line message, the one whose
body is a tree, is caught and ends the call with false; that of a two-line message is not caught. -/
def deliver : List (PTree × Body) → σ → (σ → ReadResult σ) → ReadResult σ
  | [], state, finish => finish state
  | (header, body) :: frames, state, finish =>
    match dispatchMsg header body state, body with
    | .done state, _ => deliver frames state finish
    | .raised state, .tree _ => .rejected state
    | .raised state, .raw _ => .raised state
    | .hung, _ => .hung

/-- The processor after the frames have been delivered, unless a header line has been refused. -/
def finishScan (cmd : List Char) (waiting : Option (Option PTree)) (state : σ) : ReadResult σ :=
  match waiting with
  | some header => .accepted ⟨⟨cmd, []⟩, header⟩ state
  | none => .rejected state

theorem processLoop_eq_deliver (fuel : Nat) (processor : InputProcessor) (state : σ)
    (bound : processor.acculine.curline.length < fuel) :
    processLoop readJson dispatchMsg fuel processor state =
      deliver dispatchMsg
        (scan readJson processor.header
          (splitLines processor.acculine.cmd processor.acculine.curline).1).1 state
        (finishScan (splitLines processor.acculine.cmd processor.acculine.curline).2
          (scan readJson processor.header
            (splitLines processor.acculine.cmd processor.acculine.curline).1).2) := by
  induction fuel generalizing processor state with
  | zero => omega
  | succ fuel inductionHypothesis =>
    obtain ⟨acculine, header⟩ := processor
    -- each turn takes one line off the block, which is why the fuel lasts
    rcases getNextCmd_cases acculine with ⟨exhausted, noLines⟩ | ⟨line, rest, next, shorter, lines⟩
    · simp only [processLoop, exhausted, noLines]
      cases header <;> rfl
    · have later : ∀ header state, processLoop readJson dispatchMsg fuel ⟨⟨[], rest⟩, header⟩ state =
          deliver dispatchMsg (scan readJson header (splitLines [] rest).1).1 state
            (finishScan (splitLines [] rest).2 (scan readJson header (splitLines [] rest).1).2) := by
        intro header state
        exact inductionHypothesis ⟨⟨[], rest⟩, header⟩ state (by simp only at bound ⊢; omega)
      simp only [processLoop, next, lines]
      cases header with
      | some header =>
        simp only [scan, deliver]
        cases dispatchMsg header (.raw line) state with
        | done state => exact later none state
        | raised state => rfl
        | hung => rfl
      | none =>
        simp only [scan]
        cases parsed : readJson line with
        | none => rfl
        | some header =>
          cases embedded : header.find "body" with
          -- a header without a body waits for the next line
          | none => simpa [embedded] using later (some header) state
          | some body =>
            simp only [embedded, deliver]
            cases dispatchMsg (header.erase "body") (.tree body) state with
            | done state => exact later none state
            | raised state => rfl
            | hung => rfl

theorem processNewInput_eq_deliver (input : List Char) (processor : InputProcessor) (state : σ) :
    processNewInput readJson dispatchMsg input processor state =
      deliver dispatchMsg
        (scan readJson processor.header (splitLines processor.acculine.cmd input).1).1 state
        (finishScan (splitLines processor.acculine.cmd input).2
          (scan readJson processor.header (splitLines processor.acculine.cmd input).1).2) :=
  processLoop_eq_deliver readJson dispatchMsg _ _ state (Nat.lt_succ_self _)

end Deliver

/-- The rule for the messages of a block: a property of the messages so far and of the state is carried
along by a dispatcher that does not raise. -/
theorem deliver_rule {σ : Type*} {dispatchMsg : PTree → Body → σ → Outcome σ}
    {P : List (PTree × Body) → σ → Prop} {frames : List (PTree × Body)} {heard : List (PTree × Body)}
    {state : σ} (finish : σ → ReadResult σ)
    (each : ∀ {heard' frame state}, heard' ++ [frame] <+: heard ++ frames → P heard' state →
      (∀ t, dispatchMsg frame.1 frame.2 state ≠ .raised t) ∧
        (dispatchMsg frame.1 frame.2 state).All (P (heard' ++ [frame])))
    (initial : P heard state) :
    deliver dispatchMsg frames state finish = .hung ∨
      ∃ t, P (heard ++ frames) t ∧ deliver dispatchMsg frames state finish = finish t := by
  induction frames generalizing heard state with
  | nil => exact .inr ⟨state, by simpa using initial, rfl⟩
  | cons frame frames inductionHypothesis =>
    obtain ⟨header, body⟩ := frame
    have next : heard ++ [(header, body)] ++ frames = heard ++ (header, body) :: frames := by simp
    have first : heard ++ [(header, body)] <+: heard ++ (header, body) :: frames :=
      next ▸ List.prefix_append _ _
    obtain ⟨noRaise, all⟩ := each first initial
    cases dispatched : dispatchMsg header body state with
    | hung => exact .inl (by simp [deliver, dispatched])
    | raised t => exact absurd dispatched (noRaise t)
    | done t =>
      rw [dispatched] at all
      have later := @inductionHypothesis (heard ++ [(header, body)]) t (fun {heard' frame state} part =>
        each (next ▸ part)) all
      simpa [deliver, dispatched] using later

/-- `deliver` gets to the end of the messages or stops at one of them, whatever comes behind them; a
property that the messages keep holds there. -/
theorem deliver_keeps {σ : Type*} {dispatchMsg : PTree → Body → σ → Outcome σ} {P : σ → Prop}
    {frames : List (PTree × Body)} {state : σ} (initial : P state)
    (each : ∀ frame ∈ frames, ∀ state, P state → (dispatchMsg frame.1 frame.2 state).All P) :
    (∃ t, P t ∧ ∀ finish, deliver dispatchMsg frames state finish = finish t) ∨
      (∃ t, P t ∧ ∀ finish, deliver dispatchMsg frames state finish = .rejected t) ∨
        (∃ t, ∀ finish, deliver dispatchMsg frames state finish = .raised t) ∨
          ∀ finish, deliver dispatchMsg frames state finish = .hung := by
  induction frames generalizing state with
  | nil => exact .inl ⟨state, initial, fun _ => rfl⟩
  | cons frame frames inductionHypothesis =>
    obtain ⟨header, body⟩ := frame
    rw [List.forall_mem_cons] at each
    have first := each.1 state initial
    dsimp only at first
    simp only [deliver]
    cases handled : dispatchMsg header body state with
    | done t =>
      rw [handled] at first
      exact inductionHypothesis first each.2
    | raised t =>
      rw [handled] at first
      cases body with
      | tree tree => exact .inr (.inl ⟨t, first, fun _ => rfl⟩)
      | raw bytes => exact .inr (.inr (.inl ⟨t, fun _ => rfl⟩))
    | hung => exact .inr (.inr (.inr fun _ => rfl))

end Uzel
