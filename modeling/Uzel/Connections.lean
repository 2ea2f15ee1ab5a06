import Uzel.Registry

/-! # The owners of handlers (`dispatcher.h`)

A `Connection` names a registered handler and may be copied.  A `ScopedConnection` holds one, which it
disconnects when it is destroyed; it cannot be copied, and its moves are those of its member.  Here the
program has any number of variables of both classes, and it keeps the dispatcher alive.

The ids are given with the registrations and differ from each other.  `registered` and `released` are
history: the registrations, and the ids of the connections that have been disconnected.
-/

namespace Uzel

structure Connection where
  /-- `m_self` points to the dispatcher. -/
  self : Bool
  cname : String
  id : HandlerId
deriving DecidableEq, Repr

namespace Connection

/-- `Connection()` -/
def unset : Connection := ⟨false, "", 0⟩

/-- What `registerHandler` and `registerAnyPost` return. -/
def of : HandlerList → HandlerId → Connection
  | .named cname, id => ⟨true, cname, id⟩
  | .anyPost, id => ⟨true, "", id⟩

/-- The object and the dispatcher after `disconnect()`. -/
def disconnect {η : Type*} (registry : Registry η) (connection : Connection) : Connection × Registry η :=
  (⟨false, connection.cname, 0⟩,
    if connection.self then registry.disconnectImpl connection.cname connection.id else registry)

/-- What a move leaves behind.  The name is unspecified, but without `m_self` it is not read. -/
def movedFrom (connection : Connection) : Connection := ⟨false, "", connection.id⟩

end Connection

structure Registration (η : Type*) where
  list : HandlerList
  id : HandlerId
  handler : η
  /-- registered by `registerHandlerScoped` or `registerAnyPostScoped` -/
  isScoped : Bool

def Registration.entry {η : Type*} (registration : Registration η) : HandlerList × HandlerId × η :=
  (registration.list, registration.id, registration.handler)

structure Connections (η : Type*) where
  registry : Registry η
  /-- the variables of class `Connection` -/
  plain : Nat → Connection
  /-- the members of the objects of class `ScopedConnection` that are alive -/
  objects : Nat → Option Connection
  registered : List (Registration η)
  released : List HandlerId

inductive ConnectionsEvent (η : Type*) where
  | register (v : Nat) (list : HandlerList) (id : HandlerId) (handler : η)
  | registerScoped (o : Nat) (list : HandlerList) (id : HandlerId) (handler : η)
  | disconnect (v : Nat)
  | construct (o : Nat)
  | constructFrom (o v : Nat)
  | moveConstruct (o src : Nat)
  | moveAssign (dst src : Nat)
  | destroy (o : Nat)

namespace Connections

variable {η : Type*}

def initial : Connections η := ⟨.empty, fun _ => .unset, fun _ => none, [], []⟩

def known (id : HandlerId) (s : Connections η) : Bool := s.registered.any (·.id == id)

def store (list : HandlerList) (id : HandlerId) (handler : η) (isScoped : Bool) (s : Connections η) :
    Connections η :=
  { s with
    registry := s.registry.store list id handler
    registered := s.registered ++ [⟨list, id, handler, isScoped⟩] }

/-- The effect of `disconnect()` on the dispatcher. -/
def release (connection : Connection) (s : Connections η) : Connections η :=
  { s with
    registry := (connection.disconnect s.registry).2
    released := if connection.self then s.released ++ [connection.id] else s.released }

def setPlain (v : Nat) (connection : Connection) (s : Connections η) : Connections η :=
  { s with plain := Function.update s.plain v connection }

def setObject (o : Nat) (connection : Option Connection) (s : Connections η) : Connections η :=
  { s with objects := Function.update s.objects o connection }

/-- An object is constructed where none is alive; a move assignment to the object itself is left to the
library. -/
def step (s : Connections η) : ConnectionsEvent η → Option (Connections η)
  | .register v list id handler =>
    if s.known id then none else some ((s.store list id handler false).setPlain v (.of list id))
  | .registerScoped o list id handler =>
    if s.known id || (s.objects o).isSome then none
    else some ((s.store list id handler true).setObject o (some (.of list id)))
  | .disconnect v =>
    some ((s.release (s.plain v)).setPlain v ((s.plain v).disconnect s.registry).1)
  | .construct o => if (s.objects o).isSome then none else some (s.setObject o (some .unset))
  | .constructFrom o v =>
    if (s.objects o).isSome then none else some (s.setObject o (some (s.plain v)))
  | .moveConstruct o src =>
    match s.objects o, s.objects src with
    | none, some connection =>
      some ((s.setObject src (some connection.movedFrom)).setObject o (some connection))
    | _, _ => none
  | .moveAssign dst src =>
    if dst = src then none
    else
      match s.objects dst, s.objects src with
      -- the connection that `dst` has held is overwritten
      | some _, some connection =>
        some ((s.setObject src (some connection.movedFrom)).setObject dst (some connection))
      | _, _ => none
  | .destroy o =>
    match s.objects o with
    | none => none
    | some connection => some ((s.release connection).setObject o none)

end Connections

end Uzel
