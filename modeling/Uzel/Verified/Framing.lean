import Uzel.InputProcessor

/-! # The input processor refines a parser of the whole stream

`reference` reads the complete lines of a stream as the documentation of `InputProcessor` describes
the format, without any state between blocks.  Whatever the cuts of the stream into blocks are, the
processor hands the same messages to `dispatchMsg` and gives the same verdict.
-/

namespace Uzel.Verified.Framing

open Foundation

/-- The complete lines of a stream: the parts between its line feeds without the unterminated tail. -/
def completeLines (stream : List Char) : List (List Char) := (stream.splitOn '\n').dropLast

/-- The messages of a list of lines, and whether all header lines are JSON. -/
def reference (readJson : List Char → Option PTree) : List (List Char) → List (PTree × Body) × Bool
  | [] => ([], true)
  | headerLine :: rest =>
    match readJson headerLine with
    | none => ([], false)
    | some tree =>
      match tree.find "body" with
      | some body =>
        let messages := reference readJson rest
        ((tree.erase "body", .tree body) :: messages.1, messages.2)
      | none =>
        match rest with
        | [] => ([], true)
        | bodyLine :: rest =>
          let messages := reference readJson rest
          ((tree, .raw bodyLine) :: messages.1, messages.2)

/-- The blocks are fed one after the other, up to the first one for which false is returned. -/
def feed {σ : Type*} (readJson : List Char → Option PTree) (dispatchMsg : PTree → Body → σ → Outcome σ) :
    List (List Char) → InputProcessor → σ → ReadResult σ
  | [], processor, state => .accepted processor state
  | block :: blocks, processor, state =>
    match processNewInput readJson dispatchMsg block processor state with
    | .accepted processor state => feed readJson dispatchMsg blocks processor state
    | result => result

/-- The state and the verdict of a call that has returned. -/
def observed {σ : Type*} : ReadResult σ → Option (σ × Bool)
  | .accepted _ state => some (state, true)
  | .rejected state => some (state, false)
  | .raised _ => none
  | .hung => none

theorem observed_finishScan {σ : Type*} (cmd : List Char) (waiting : Option (Option PTree)) (state : σ) :
    observed (finishScan cmd waiting state) = some (state, waiting.isSome) := by
  cases waiting <;> rfl

theorem reference_eq_scan (readJson : List Char → Option PTree) (lines : List (List Char)) :
    reference readJson lines = ((scan readJson none lines).1, (scan readJson none lines).2.isSome) := by
  induction lines using reference.induct readJson with
  | case1 => rfl
  | case2 headerLine rest refused => simp [reference, scan, refused]
  | case3 headerLine rest tree parsed body embedded inductionHypothesis =>
    simp [reference, scan, parsed, embedded, inductionHypothesis]
  | case4 headerLine tree parsed separate => simp [reference, scan, parsed, separate]
  | case5 headerLine tree parsed separate bodyLine rest inductionHypothesis =>
    simp [reference, scan, parsed, separate, inductionHypothesis]

theorem deliver_done {σ : Type*} (handle : σ → PTree → Body → σ) (frames : List (PTree × Body))
    (state : σ) (finish : σ → ReadResult σ) :
    deliver (fun header body state => .done (handle state header body)) frames state finish =
      finish (frames.foldl (fun state frame => handle state frame.1 frame.2) state) := by
  induction frames generalizing state with
  | nil => rfl
  | cons frame frames inductionHypothesis => exact inductionHypothesis _

/-- The processor state between two blocks is a function of the bytes so far: the lines that they
complete have been scanned and the rest of the last line is kept. -/
theorem feed_eq_scan {σ : Type*} (readJson : List Char → Option PTree) (handle : σ → PTree → Body → σ)
    (blocks : List (List Char)) (cmd : List Char) (header : Option PTree) (state : σ) :
    feed readJson (fun header body state => .done (handle state header body)) blocks
        ⟨⟨cmd, []⟩, header⟩ state =
      finishScan (splitLines cmd blocks.flatten).2
        (scan readJson header (splitLines cmd blocks.flatten).1).2
        ((scan readJson header (splitLines cmd blocks.flatten).1).1.foldl
          (fun state frame => handle state frame.1 frame.2) state) := by
  -- a block leaves behind a partial line and the header that waits
  induction blocks generalizing cmd header state with
  | nil => cases header <;> rfl
  | cons block blocks inductionHypothesis =>
    rw [feed, processNewInput_eq_deliver, deliver_done, List.flatten_cons, splitLines_append,
      scan_append]
    rcases scanned : scan readJson header (splitLines cmd block).1 with ⟨frames, waiting⟩
    cases waiting with
    | none => rfl
    | some waiting =>
      rw [List.foldl_append]
      exact inductionHypothesis _ waiting _

/-- For every cut of a stream into blocks, empty ones included, the pairs handed to `dispatchMsg` and
the verdict are those of the reference parser on the whole stream.  `handle` is what a dispatcher
that does not raise makes of a pair; with the one that appends the pair to a log the state is the
sequence of the pairs. -/
theorem framing_refines_reference {σ : Type*} (readJson : List Char → Option PTree)
    (handle : σ → PTree → Body → σ) (blocks : List (List Char)) (state : σ) :
    observed (feed readJson (fun header body state => .done (handle state header body)) blocks
        .fresh state) =
      some ((reference readJson (completeLines blocks.flatten)).1.foldl
          (fun state frame => handle state frame.1 frame.2) state,
        (reference readJson (completeLines blocks.flatten)).2) := by
  have lines : completeLines blocks.flatten = (splitLines [] blocks.flatten).1 :=
    (splitLines_eq_splitOn [] blocks.flatten List.not_mem_nil).symm
  rw [InputProcessor.fresh, feed_eq_scan, observed_finishScan, lines, reference_eq_scan]

end Uzel.Verified.Framing
