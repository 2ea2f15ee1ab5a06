import Uzel.Foundation.Json
import Uzel.Foundation.Simulation
import Uzel.Server
import Uzel.Verified.DispatchSnapshots

/-! # The two models of a dispatcher

`DispatchLoop` has the loops of `dispatch` over shared vectors and leaves open what the handlers do.
`Dispatcher` says what the handlers do and takes the loops for a sequence of guarded calls; it is what
the server and the applications are built on.  Their handlers neither register handlers nor dispatch
messages.  For such handlers the two models agree: a `Driven` strand, on which each handler that is
called acts on the state and then ends, comes to its end with the result of the sequence, and it hangs
where the sequence does.
-/

namespace Uzel

open Foundation

variable {σ : Type*}

/-- A strand with the message that is dispatched on it and the state that its handlers act on. -/
structure Driven (σ : Type*) where
  strand : Strand (Handler σ)
  msg : Msg
  state : σ

namespace Driven

/-- The handler that has been called last runs to its end. -/
def step (d : Driven σ) (_ : Unit) : Option (Driven σ) :=
  match d.strand.running with
  | [] => none
  | frame :: _ =>
    frame.called.getLast?.bind fun entry =>
      match entry.2 d.msg d.state with
      | .done (msg, state) => (d.strand.step (.handlerEnds false)).map (⟨·, msg, state⟩)
      | .raised (msg, state) => (d.strand.step (.handlerEnds true)).map (⟨·, msg, state⟩)
      | .hung => none

/-- The handlers run until the strand is at rest, or until one of them hangs. -/
def Runs (d t : Driven σ) : Prop :=
  (∃ n, exec step d (List.replicate n ()) = some t) ∧ t.step () = none

theorem runs_self {d : Driven σ} (ends : d.step () = none) : d.Runs d := ⟨⟨0, rfl⟩, ends⟩

theorem Runs.after {d next t : Driven σ} (runs : next.Runs t) (stepped : d.step () = some next) : d.Runs t := by
  obtain ⟨⟨n, executed⟩, ends⟩ := runs
  refine ⟨⟨n + 1, ?_⟩, ends⟩
  rw [List.replicate_succ, exec_cons]
  exact ⟨next, stepped, executed⟩

/-- There is one way to run. -/
theorem Runs.unique {d t u : Driven σ} (first : d.Runs t) (second : d.Runs u) : t = u := by
  obtain ⟨⟨n, executed⟩, ends⟩ := first
  induction n generalizing d with
  | zero =>
    cases executed
    obtain ⟨⟨m, executed⟩, _⟩ := second
    cases m with
    | zero =>
      cases executed
      rfl
    | succ m =>
      obtain ⟨_, stepped, _⟩ := exec_cons.mp executed
      rw [ends] at stepped
      cases stepped
  | succ n inductionHypothesis =>
    obtain ⟨next, stepped, rest⟩ := exec_cons.mp executed
    apply inductionHypothesis _ rest
    obtain ⟨⟨m, executed⟩, ended⟩ := second
    cases m with
    | zero =>
      cases executed
      rw [ended] at stepped
      cases stepped
    | succ m =>
      obtain ⟨other, same, later⟩ := exec_cons.mp executed
      obtain rfl : other = next := Option.some.inj (same.symm.trans stepped)
      exact ⟨⟨m, later⟩, ended⟩

end Driven

namespace Strand

/-- The handlers that are stored, as a dispatcher. -/
def dispatcher (s : Strand (Handler σ)) : MsgDispatcher σ where
  handlers cname := (s.registry.stored (.named cname)).map Prod.snd
  anyPost := (s.registry.stored .anyPost).map Prod.snd

end Strand

end Uzel

namespace Uzel.Verified.DispatcherRefinement

open Foundation MsgDispatcher

section Loops

variable {σ : Type*} {s : Strand (Handler σ)} {frame : Frame (Handler σ)}

/-- The strand runs to the end that the outcome stands for. -/
def Comes (s : Strand (Handler σ)) (d : Driven σ) : Outcome (Msg × σ) → Prop
  | .done result => ∃ frame, d.Runs ⟨s.finish frame, result.1, result.2⟩
  | .raised _ => False
  | .hung => ∃ t : Driven σ, d.Runs t ∧ t.strand.running ≠ []

theorem Comes.after {d next : Driven σ} {outcome : Outcome (Msg × σ)} (comes : Comes s next outcome)
    (stepped : d.step () = some next) : Comes s d outcome := by
  cases outcome with
  | done result =>
    obtain ⟨frame, runs⟩ := comes
    exact ⟨frame, runs.after stepped⟩
  | raised _ => exact comes
  | hung =>
    obtain ⟨t, runs, waits⟩ := comes
    exact ⟨t, runs.after stepped, waits⟩

/-- A handler that is called acts on the state and ends, and the loop goes on whichever way it ends. -/
theorem step_wait (idle : s.running = []) {entry : HandlerId × Handler σ}
    (called : frame.called.getLast? = some entry) (msg : Msg) (state : σ) :
    Driven.step ⟨s.wait frame, msg, state⟩ () =
      (entry.2 msg state).attempt.final.map fun left => ⟨s.run frame, left.1, left.2⟩ := by
  have goesOn : ∀ raised, (s.wait frame).step (.handlerEnds raised) = some (s.run frame) := by
    intro raised
    simp only [Strand.step, Strand.wait, idle]
    rw [← idle]
  have isRunning : (s.wait frame).running = frame :: s.running := rfl
  simp only [Driven.step, isRunning, called, Option.bind_some, goesOn, Option.map_some]
  cases entry.2 msg state <;> rfl

theorem comes_call (idle : s.running = []) {entry : HandlerId × Handler σ}
    (called : frame.called.getLast? = some entry) (msg : Msg) (state : σ)
    {next : Msg × σ → Outcome (Msg × σ)}
    (later : ∀ left after, Comes s ⟨s.run frame, left, after⟩ (next (left, after))) :
    Comes s ⟨s.wait frame, msg, state⟩ ((entry.2 msg state).attempt.andThen next) := by
  have stepped := step_wait idle called msg state
  cases ends : entry.2 msg state with
  | done result | raised result =>
    rw [ends] at stepped
    exact (later result.1 result.2).after stepped
  | hung =>
    rw [ends] at stepped
    exact ⟨_, Driven.runs_self stepped, List.cons_ne_nil _ _⟩

/-- The handlers that a loop has not called yet. -/
def left (registry : Registry (Handler σ)) (frame : Frame (Handler σ)) : HandlerVec (Handler σ) :=
  (frame.snapshot registry).drop frame.next

/-- The frame when the loop has called the handler. -/
def calling (frame : Frame (Handler σ)) (entry : HandlerId × Handler σ) : Frame (Handler σ) :=
  { frame with next := frame.next + 1, called := frame.called ++ [entry] }

theorem callNext_nil {registry : Registry (Handler σ)} (ends : left registry frame = []) :
    frame.callNext registry = none := by
  rw [Frame.callNext_eq, Option.map_eq_none_iff, List.getElem?_eq_none_iff]
  exact List.drop_eq_nil_iff.mp ends

theorem callNext_cons {registry : Registry (Handler σ)} {entry : HandlerId × Handler σ}
    {rest : HandlerVec (Handler σ)} (remaining : left registry frame = entry :: rest) :
    frame.callNext registry = some (calling frame entry) ∧ left registry (calling frame entry) = rest := by
  constructor
  · have front : (frame.snapshot registry)[frame.next]? = some entry := by
      rw [← List.head?_drop, ← left, remaining, List.head?_cons]
    rw [Frame.callNext_eq, front, Option.map_some, calling]
  · show (frame.snapshot registry).drop (frame.next + 1) = rest
    rw [← List.drop_drop, ← left, remaining, List.drop_one, List.tail_cons]

theorem comes_runPost (idle : s.running = []) (post : frame.phase = .post) {rest : HandlerVec (Handler σ)}
    (remaining : left s.registry frame = rest) (msg : Msg) (state : σ) :
    Comes s ⟨s.runPost frame, msg, state⟩ (runHandlers (rest.map Prod.snd) (msg, state)) := by
  induction rest generalizing frame msg state with
  | nil =>
    simp only [Strand.runPost, callNext_nil remaining]
    exact ⟨frame, Driven.runs_self (by simp [Driven.step, Strand.finish, idle])⟩
  | cons entry rest inductionHypothesis =>
    obtain ⟨calls, others⟩ := callNext_cons remaining
    simp only [Strand.runPost, calls]
    apply comes_call idle List.getLast?_concat
    intro msg state
    have goesOn : s.run (calling frame entry) = s.runPost (calling frame entry) := by
      simp only [Strand.run, calling, post]
    rw [goesOn]
    exact @inductionHypothesis (calling frame entry) post others msg state

/-- The first loop goes over to the second one, which takes its vector then. -/
theorem comes_run (idle : s.running = []) (per : frame.phase = .per) {rest : HandlerVec (Handler σ)}
    (remaining : left s.registry frame = rest) (msg : Msg) (state : σ) :
    Comes s ⟨s.run frame, msg, state⟩ ((runHandlers (rest.map Prod.snd) (msg, state)).andThen
      (runHandlers s.dispatcher.anyPost)) := by
  induction rest generalizing frame msg state with
  | nil =>
    have ends : s.run frame = s.runPost (frame.startPost s.registry) := by
      simp only [Strand.run, per, callNext_nil remaining]
    rw [ends]
    exact comes_runPost idle rfl rfl msg state
  | cons entry rest inductionHypothesis =>
    obtain ⟨calls, others⟩ := callNext_cons remaining
    have waits : s.run frame = s.wait (calling frame entry) := by
      simp only [Strand.run, per, calls]
    rw [waits]
    rw [List.map_cons, runHandlers, Outcome.forEach, Outcome.andThen_assoc]
    apply comes_call idle List.getLast?_concat
    exact fun msg state => @inductionHypothesis (calling frame entry) per others msg state

/-- A dispatch on a strand at rest comes to the end that the sequence of guarded calls has. -/
theorem comes_dispatch (idle : s.running = []) {msg : Msg} {cname : String} (named : msg.cname = some cname)
    (state : σ) :
    Comes s ⟨s.run (.start s.registry cname msg.toMe), msg, state⟩ (s.dispatcher.dispatch msg state) := by
  have isDispatch : s.dispatcher.dispatch msg state = (runHandlers
      ((left s.registry (.start s.registry cname msg.toMe)).map Prod.snd) (msg, state)).andThen
        (runHandlers s.dispatcher.anyPost) := by
    simp only [MsgDispatcher.dispatch, named]
    cases msg.toMe <;> rfl
  rw [isDispatch]
  exact comes_run idle rfl rfl msg state

/-- The end of the strand tells the outcome. -/
theorem Comes.done_iff {d : Driven σ} {outcome : Outcome (Msg × σ)} (comes : Comes s d outcome)
    (idle : s.running = []) (result : Msg × σ) :
    outcome = .done result ↔ ∃ t, d.Runs ⟨t, result.1, result.2⟩ ∧ t.running = [] := by
  constructor
  · rintro rfl
    obtain ⟨frame, runs⟩ := comes
    exact ⟨s.finish frame, runs, idle⟩
  · rintro ⟨t, runs, rest⟩
    cases outcome with
    | done other =>
      obtain ⟨frame, ends⟩ := comes
      have same := ends.unique runs
      simp only [Driven.mk.injEq] at same
      exact congrArg Outcome.done (Prod.ext same.2.1 same.2.2)
    | raised _ => exact absurd comes id
    | hung =>
      obtain ⟨u, ends, waits⟩ := comes
      rw [ends.unique runs] at waits
      exact absurd rest waits

end Loops

section Refinement

variable {σ : Type*}

/-- For handlers that only act on a state, the loops over the vectors of the registry and the sequence of
guarded calls come to the same end, or both to none. -/
theorem dispatch_refined {s begun : Strand (Handler σ)} (idle : s.running = []) {msg : Msg}
    (named : msg.cname ≠ none) (begins : s.step (.dispatch msg) = some begun) (state : σ) (result : Msg × σ) :
    s.dispatcher.dispatch msg state = .done result ↔
      ∃ t, Driven.Runs ⟨begun, msg, state⟩ ⟨t, result.1, result.2⟩ ∧ t.running = [] := by
  obtain ⟨cname, isNamed⟩ := Option.ne_none_iff_exists'.mp named
  simp only [Strand.step, isNamed, Option.some.injEq] at begins
  rw [← begins]
  exact (comes_dispatch idle isNamed state).done_iff idle result

/-- The strand when the constructor of the server has registered its handlers. -/
def serverStrand (json : JsonCodec) (config : UConfig) : Strand (Handler Server) :=
  ((Strand.initial.register (.named "priority") (Server.handlePriorityMsg json config)).register .anyPost
    (Server.handleAny json))

theorem stored_register (s : Strand (Handler σ)) (list other : HandlerList) (handler : Handler σ) :
    (s.register list handler).registry.stored other =
      if other = list then s.registry.stored list ++ [(s.registry.nextId, handler)]
      else s.registry.stored other := by
  have stored := Registry.stored_store list other s.registry.nextId handler s.registry.takeId.2
  rw [Registry.stored_takeId, Registry.stored_takeId] at stored
  exact stored

theorem dispatcher_serverStrand (json : JsonCodec) (config : UConfig) :
    (serverStrand json config).dispatcher = Server.dispatcher json config := by
  have empty : ∀ list, (Strand.initial : Strand (Handler Server)).registry.stored list = [] :=
    Registry.stored_empty
  have named : ∀ cname, ((serverStrand json config).registry.stored (.named cname)).map Prod.snd =
      if cname = "priority" then [Server.handlePriorityMsg json config] else [] := by
    intro cname
    by_cases priority : cname = "priority" <;> simp [serverStrand, stored_register, priority, empty]
  have anyPost : ((serverStrand json config).registry.stored .anyPost).map Prod.snd =
      [Server.handleAny json] := by
    simp [serverStrand, stored_register, empty]
  simp only [Strand.dispatcher, Server.dispatcher, named, anyPost]

/-- The strand of a server that is given a message for an application it does not know. -/
theorem dispatch_refined_unknown :
    ∃ begun t : Strand (Handler Server),
      (serverStrand Json.compactJson ⟨"alpha", "userver"⟩).step
        (.dispatch (.outgoing ⟨"alpha", "userver"⟩ ⟨"uecho", "alpha"⟩ "ping" .empty)) = some begun ∧
      Driven.Runs ⟨begun, .outgoing ⟨"alpha", "userver"⟩ ⟨"uecho", "alpha"⟩ "ping" .empty,
          .initial ⟨"alpha", "userver"⟩ 0 []⟩
        ⟨t, .outgoing ⟨"alpha", "userver"⟩ ⟨"uecho", "alpha"⟩ "ping" .empty,
          .initial ⟨"alpha", "userver"⟩ 0 []⟩ ∧ t.running = [] := by
  have begins : ∃ begun, (serverStrand Json.compactJson ⟨"alpha", "userver"⟩).step
      (.dispatch (.outgoing ⟨"alpha", "userver"⟩ ⟨"uecho", "alpha"⟩ "ping" .empty)) = some begun := ⟨_, rfl⟩
  obtain ⟨begun, begins⟩ := begins
  obtain ⟨t, runs, rest⟩ := (dispatch_refined rfl (by decide) begins (.initial ⟨"alpha", "userver"⟩ 0 [])
    (.outgoing ⟨"alpha", "userver"⟩ ⟨"uecho", "alpha"⟩ "ping" .empty, .initial ⟨"alpha", "userver"⟩ 0 [])).mp rfl
  exact ⟨begun, t, begins, runs, rest⟩

/-- The task of the server is the strand of its dispatcher, driven to its end. -/
theorem dispatchTask_driven (json : JsonCodec) (config : UConfig) {msg : Msg} (named : msg.cname ≠ none)
    {begun : Strand (Handler Server)} (begins : (serverStrand json config).step (.dispatch msg) = some begun)
    (server after : Server) : server.dispatchTask json config msg = .done after ↔
      ∃ t left, Driven.Runs ⟨begun, msg, server⟩ ⟨t, left, after⟩ ∧ t.running = [] := by
  obtain ⟨cname, isNamed⟩ := Option.ne_none_iff_exists'.mp named
  simp only [Strand.step, isNamed, Option.some.injEq] at begins
  have comes := comes_dispatch (s := serverStrand json config) rfl isNamed server
  rw [begins, dispatcher_serverStrand] at comes
  have same : server.dispatchTask json config msg = .done after ↔
      ∃ left, (Server.dispatcher json config).dispatch msg server = .done (left, after) := by
    unfold Server.dispatchTask
    cases (Server.dispatcher json config).dispatch msg server with
    | done result => simp [Prod.ext_iff]
    | raised result => simp
    | hung => simp
  rw [same]
  constructor
  · rintro ⟨left, done⟩
    obtain ⟨t, runs, rest⟩ := (comes.done_iff rfl (left, after)).mp done
    exact ⟨t, left, runs, rest⟩
  · rintro ⟨t, left, runs, rest⟩
    exact ⟨left, (comes.done_iff rfl (left, after)).mpr ⟨t, runs, rest⟩⟩

end Refinement

end Uzel.Verified.DispatcherRefinement
