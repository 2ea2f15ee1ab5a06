import Uzel.Msg
import Uzel.Registry

/-! # The strand of a dispatcher (`dispatcher.cpp`)

Everything that uses the registry runs on the strand, and what runs there already is not queued again:
a handler that registers or disconnects handlers, or dispatches a message, does so at once, in the
middle of the loops that are calling it.  The state is therefore a stack of dispatches, the innermost
first, each of which waits for the handler that it has called.  What a handler does is not part of the
model: it makes any calls, and it returns or raises.

`named`, `posts`, `called`, `finished` and `registered` are history: what was stored when a loop of a
dispatch began, the calls it has made, the dispatches that have ended, and the handlers that have been
registered.
-/

namespace Uzel

/-- The two loops of `dispatch`. -/
inductive Phase where
  | per | post
deriving DecidableEq, Repr

structure Frame (η : Type*) where
  cname : String
  toMe : Bool
  phase : Phase
  /-- the snapshot pointer, `per` or `post` -/
  vector : Option VectorPtr
  /-- the position of the loop in the vector -/
  next : Nat
  named : HandlerVec η
  posts : HandlerVec η
  called : HandlerVec η

structure Strand (η : Type*) where
  registry : Registry η
  running : List (Frame η)
  finished : List (Frame η)
  registered : List (HandlerList × HandlerId × η)

inductive StrandEvent (η : Type*) where
  | registerHandler (cname : String) (handler : η)
  | registerAnyPost (handler : η)
  | disconnect (cname : String) (id : HandlerId)
  | unregisterAll (cname : String)
  | clearAnyPost
  | dispatch (msg : Msg)
  | handlerEnds (raised : Bool)

variable {η : Type*}

namespace Frame

/-- The beginning of the task of `dispatch`. -/
def start (registry : Registry η) (cname : String) (toMe : Bool) : Frame η where
  cname := cname
  toMe := toMe
  phase := .per
  vector := if toMe then registry.handlers cname else none
  next := 0
  named := registry.stored (.named cname)
  posts := []
  called := []

/-- The loop of the phase calls the next handler of its vector. -/
def callNext (registry : Registry η) (frame : Frame η) : Option (Frame η) :=
  (frame.vector.bind fun ptr => (registry.deref ptr)[frame.next]?).map fun entry =>
    { frame with next := frame.next + 1, called := frame.called ++ [entry] }

/-- `HandlerShrVecPtr post = self->m_anyPost` -/
def startPost (registry : Registry η) (frame : Frame η) : Frame η :=
  { frame with
    phase := .post
    vector := registry.anyPost
    next := 0
    posts := registry.stored .anyPost }

end Frame

namespace Strand

def initial : Strand η := ⟨.empty, [], [], []⟩

def withRegistry (s : Strand η) (registry : Registry η) : Strand η := { s with registry }

def finish (frame : Frame η) (s : Strand η) : Strand η := { s with finished := s.finished ++ [frame] }

def wait (frame : Frame η) (s : Strand η) : Strand η := { s with running := frame :: s.running }

/-- The second loop up to its next call. -/
def runPost (frame : Frame η) (s : Strand η) : Strand η :=
  match frame.callNext s.registry with
  | some frame => s.wait frame
  | none => s.finish frame

/-- A dispatch up to its next call; the second loop takes its snapshot when the first one is done. -/
def run (frame : Frame η) (s : Strand η) : Strand η :=
  match frame.phase with
  | .per =>
    match frame.callNext s.registry with
    | some frame => s.wait frame
    | none => s.runPost (frame.startPost s.registry)
  | .post => s.runPost frame

def register (list : HandlerList) (handler : η) (s : Strand η) : Strand η :=
  let (id, registry) := s.registry.takeId
  { s with
    registry := registry.store list id handler
    registered := s.registered ++ [(list, id, handler)] }

/-- A call of the code that runs on the strand, or the end of the handler that runs. -/
def step (s : Strand η) : StrandEvent η → Option (Strand η)
  | .registerHandler cname handler => some (s.register (.named cname) handler)
  | .registerAnyPost handler => some (s.register .anyPost handler)
  | .disconnect cname id => some (s.withRegistry (s.registry.disconnectImpl cname id))
  | .unregisterAll cname => some (s.withRegistry (s.registry.unregisterAll cname))
  | .clearAnyPost => some (s.withRegistry s.registry.clearAnyPost)
  | .dispatch msg =>
    match msg.cname with
    -- `cname()` raises in front of the loops, and the exception goes to the caller
    | none => some s
    | some cname => some (s.run (.start s.registry cname msg.toMe))
  | .handlerEnds _ =>
    match s.running with
    | [] => none
    -- an exception of the handler is caught in the loop, which goes on as after a return
    | frame :: outer => some ({ s with running := outer }.run frame)

end Strand

end Uzel
