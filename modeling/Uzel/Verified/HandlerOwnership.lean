import Uzel.Connections
import Uzel.Foundation.Runs
import Mathlib.Data.List.Nodup

/-! # A handler lives as long as its owner

A handler should be stored until its connection is disconnected, and one that is registered with an
owner as long as the owner holds its connection.  Two things break this: the handlers for the empty
name, whose connections look like those of the handlers for all messages, and a move onto an owner that
already has a handler, which is overwritten and not disconnected.  `ownership_runs_iff` says that there
is nothing else.
-/

namespace Uzel.Verified.HandlerOwnership

open Foundation

variable {η : Type*}

/-- The registrations whose connections have not been disconnected, in their order. -/
def live (s : Connections η) : List (HandlerList × HandlerId × η) :=
  (s.registered.filter fun r => r.id ∉ s.released).map Registration.entry

/-- The id of the connection that an object owns. -/
def held (s : Connections η) (o : Nat) : Option HandlerId :=
  (s.objects o).bind fun connection => if connection.self then some connection.id else none

/-- The handlers that are stored are those that have not been disconnected; those registered with an
owner are stored as long as they have one; a second `disconnect()` does nothing. -/
structure Owned (s : Connections η) : Prop where
  stored : ∀ list, s.registry.stored list = list.select (live s)
  owned : ∀ r ∈ s.registered, r.isScoped = true →
    ((r.id, r.handler) ∈ s.registry.stored r.list ↔ ∃ o, held s o = some r.id)
  twice : ∀ v, ((s.plain v).disconnect s.registry).1.disconnect ((s.plain v).disconnect s.registry).2 =
    (s.plain v).disconnect s.registry

/-- The connection, if it is still set, is not that of a handler for the empty name. -/
def Disconnectable (s : Connections η) (connection : Connection) : Prop :=
  connection.self = true → ∀ r ∈ s.registered, r.id = connection.id → r.list ≠ .named ""

/-- No handler for the empty name is disconnected, and nothing is moved onto the owner of a handler that
has been registered with one. -/
def Careful (s : Connections η) : ConnectionsEvent η → Prop
  | .disconnect v => Disconnectable s (s.plain v)
  | .destroy o => ∀ connection, s.objects o = some connection → Disconnectable s connection
  | .moveAssign dst _ => ∀ r ∈ s.registered, held s dst = some r.id → r.isScoped = false
  | _ => True

structure Invariant (s : Connections η) : Prop where
  distinct : (s.registered.map (·.id)).Nodup
  stored : ∀ list, s.registry.stored list = list.select (live s)
  plain : ∀ v, (s.plain v).self = true →
    ∃ r ∈ s.registered, r.isScoped = false ∧ s.plain v = .of r.list r.id
  objects : ∀ o connection, s.objects o = some connection → connection.self = true →
    ∃ r ∈ s.registered, connection = .of r.list r.id
  unique : ∀ r ∈ s.registered, r.isScoped = true →
    ∀ o other, held s o = some r.id → held s other = some r.id → o = other
  kept : ∀ r ∈ s.registered, r.isScoped = true → (r.id ∉ s.released ↔ ∃ o, held s o = some r.id)
  released : ∀ id ∈ s.released, ∃ r ∈ s.registered, r.id = id ∧ r.list ≠ .named ""

/-! ## Registrations and their ids -/

@[simp] theorem of_self (list : HandlerList) (id : HandlerId) : (Connection.of list id).self = true := by
  cases list <;> rfl

@[simp] theorem of_id (list : HandlerList) (id : HandlerId) : (Connection.of list id).id = id := by
  cases list <;> rfl

theorem Invariant.same {s : Connections η} (invariant : Invariant s) {r r' : Registration η}
    (member : r ∈ s.registered) (member' : r' ∈ s.registered) (id : r.id = r'.id) : r = r' :=
  List.inj_on_of_nodup_map invariant.distinct member member' id

theorem mem_select {list : HandlerList} {entries : List (HandlerList × HandlerId × η)}
    {entry : HandlerId × η} : entry ∈ list.select entries ↔ (list, entry) ∈ entries := by
  simp only [HandlerList.select, List.mem_filterMap, Option.ite_none_right_eq_some, Option.some.injEq]
  constructor
  · rintro ⟨⟨_, _⟩, member, rfl, rfl⟩
    exact member
  · intro member
    exact ⟨_, member, rfl, rfl⟩

theorem mem_live {s : Connections η} {entry : HandlerList × HandlerId × η} :
    entry ∈ live s ↔ ∃ r ∈ s.registered, r.id ∉ s.released ∧ r.entry = entry := by
  simp [live, and_assoc]

theorem Invariant.mem_stored {s : Connections η} (invariant : Invariant s) {r : Registration η}
    (member : r ∈ s.registered) :
    (r.id, r.handler) ∈ s.registry.stored r.list ↔ r.id ∉ s.released := by
  rw [invariant.stored, mem_select, mem_live]
  constructor
  · rintro ⟨other, _, live, same⟩
    have id : other.id = r.id := congrArg (·.2.1) same
    exact id ▸ live
  · intro live
    exact ⟨r, member, live, rfl⟩

theorem Invariant.owned {s : Connections η} (invariant : Invariant s) : Owned s where
  stored := invariant.stored
  owned r member isScoped := (invariant.mem_stored member).trans (invariant.kept r member isScoped)
  twice v := by simp [Connection.disconnect]

/-- An object that owns a connection owns that of a registration. -/
theorem Invariant.held {s : Connections η} (invariant : Invariant s) {o : Nat} {id : HandlerId}
    (owns : held s o = some id) : ∃ r ∈ s.registered, r.id = id := by
  obtain ⟨connection, found, isSet⟩ := Option.bind_eq_some_iff.mp owns
  rw [Option.ite_none_right_eq_some, Option.some.injEq] at isSet
  obtain ⟨r, member, rfl⟩ := invariant.objects o connection found isSet.1
  exact ⟨r, member, by simpa using isSet.2⟩

theorem held_setObject (s : Connections η) (o other : Nat) (connection : Option Connection) :
    held (s.setObject o connection) other =
      if other = o then connection.bind fun c => if c.self then some c.id else none
      else held s other := by
  by_cases same : other = o
  · subst same
    simp [held, Connections.setObject]
  · simp [held, Connections.setObject, same]

theorem held_of_none {s : Connections η} {o : Nat} (dead : s.objects o = none) : held s o = none := by
  rw [HandlerOwnership.held, dead]
  rfl

theorem not_known {s : Connections η} {id : HandlerId} (fresh : s.known id = false) :
    ∀ r ∈ s.registered, r.id ≠ id := by
  intro r member same
  have known : s.known id = true := List.any_eq_true.mpr ⟨r, member, by simpa using same⟩
  simp [fresh] at known

/-! ## Registering -/

theorem invariant_store {s : Connections η} (invariant : Invariant s) {id : HandlerId}
    (fresh : s.known id = false) (list : HandlerList) (handler : η) (isScoped : Bool) :
    ((s.store list id handler isScoped).registered.map (·.id)).Nodup ∧
      (∀ other, (s.store list id handler isScoped).registry.stored other =
        other.select (live (s.store list id handler isScoped))) ∧
      id ∉ s.released := by
  have unreleased : id ∉ s.released := by
    intro released
    obtain ⟨r, member, same, _⟩ := invariant.released id released
    exact not_known fresh r member same
  refine ⟨?_, ?_, unreleased⟩
  · simpa [Connections.store, List.nodup_append] using
      ⟨invariant.distinct, fun r member same => not_known fresh r member same⟩
  · intro other
    have appended : live (s.store list id handler isScoped) = live s ++ [(list, id, handler)] := by
      simp only [live, Connections.store, List.filter_append, List.map_append]
      congr 1
      simp [unreleased, Registration.entry]
    rw [appended, HandlerList.select_append, HandlerList.select_singleton]
    simp only [Connections.store, Registry.stored_store, invariant.stored]
    by_cases same : other = list
    · subst same
      simp
    · simp [same]

theorem invariant_register {s : Connections η} (invariant : Invariant s) {id : HandlerId}
    (fresh : s.known id = false) (v : Nat) (list : HandlerList) (handler : η) :
    Invariant ((s.store list id handler false).setPlain v (.of list id)) := by
  obtain ⟨distinct, stored, unreleased⟩ := invariant_store invariant fresh list handler false
  refine ⟨distinct, stored, ?_, ?_, ?_, ?_, ?_⟩
  · intro other isSet
    by_cases same : other = v
    · subst same
      exact ⟨⟨list, id, handler, false⟩, by simp [Connections.setPlain, Connections.store], rfl,
        by simp [Connections.setPlain]⟩
    · have before : (s.plain other).self = true := by
        simpa [Connections.setPlain, Connections.store, same] using isSet
      obtain ⟨r, member, unscoped, isOf⟩ := invariant.plain other before
      refine ⟨r, List.mem_append_left _ member, unscoped, ?_⟩
      simpa [Connections.setPlain, Connections.store, same] using isOf
  · intro o connection found isSet
    obtain ⟨r, member, isOf⟩ := invariant.objects o connection found isSet
    exact ⟨r, List.mem_append_left _ member, isOf⟩
  · intro r member isScoped
    cases List.mem_append.mp member with
    | inl before => exact invariant.unique r before isScoped
    | inr isNew => simp [List.mem_singleton.mp isNew] at isScoped
  · intro r member isScoped
    cases List.mem_append.mp member with
    | inl before => exact invariant.kept r before isScoped
    | inr isNew => simp [List.mem_singleton.mp isNew] at isScoped
  · intro released member
    obtain ⟨r, known, rest⟩ := invariant.released released member
    exact ⟨r, List.mem_append_left _ known, rest⟩

theorem invariant_registerScoped {s : Connections η} (invariant : Invariant s) {id : HandlerId}
    (fresh : s.known id = false) {o : Nat} (dead : s.objects o = none) (list : HandlerList)
    (handler : η) : Invariant ((s.store list id handler true).setObject o (some (.of list id))) := by
  obtain ⟨distinct, stored, unreleased⟩ := invariant_store invariant fresh list handler true
  have owns : ∀ other, held ((s.store list id handler true).setObject o (some (.of list id))) other =
      if other = o then some id else held s other := by
    intro other
    rw [held_setObject]
    simp only [Option.bind_some, of_self, of_id, if_true]
    rfl
  -- nothing that is held has the new id, and the new object has held nothing
  have foreign : ∀ other, held s other ≠ some id := by
    intro other isHeld
    obtain ⟨r, member, same⟩ := invariant.held isHeld
    exact not_known fresh r member same
  refine ⟨distinct, stored, ?_, ?_, ?_, ?_, ?_⟩
  · intro v isSet
    obtain ⟨r, member, rest⟩ := invariant.plain v isSet
    exact ⟨r, List.mem_append_left _ member, rest⟩
  · intro other connection found isSet
    by_cases same : other = o
    · subst same
      simp only [Connections.setObject, Function.update_self, Option.some.injEq] at found
      exact ⟨⟨list, id, handler, true⟩, by simp [Connections.setObject, Connections.store], found.symm⟩
    · simp only [Connections.setObject, Function.update_of_ne same] at found
      obtain ⟨r, member, isOf⟩ := invariant.objects other connection found isSet
      exact ⟨r, List.mem_append_left _ member, isOf⟩
  · intro r member isScoped first second isFirst isSecond
    rw [owns] at isFirst isSecond
    cases List.mem_append.mp member with
    | inl before =>
      have other : id ≠ r.id := (not_known fresh r before).symm
      have notNew : ∀ x, (if x = o then some id else held s x) = some r.id → held s x = some r.id := by
        intro x isHeld
        split at isHeld
        · exact absurd (Option.some.inj isHeld) other
        · exact isHeld
      exact invariant.unique r before isScoped first second (notNew first isFirst) (notNew second isSecond)
    | inr isNew =>
      rw [List.mem_singleton.mp isNew] at isFirst isSecond
      have isO : ∀ x, (if x = o then some id else held s x) = some id → x = o := by
        intro x isHeld
        split at isHeld
        next same => exact same
        next => exact absurd isHeld (foreign x)
      rw [isO first isFirst, isO second isSecond]
  · intro r member isScoped
    simp only [owns]
    cases List.mem_append.mp member with
    | inl before =>
      rw [show ((s.store list id handler true).setObject o (some (.of list id))).released = s.released
        from rfl, invariant.kept r before isScoped]
      constructor
      · rintro ⟨other, isHeld⟩
        refine ⟨other, ?_⟩
        rw [if_neg, isHeld]
        rintro rfl
        rw [held_of_none dead] at isHeld
        cases isHeld
      · rintro ⟨other, isHeld⟩
        split at isHeld
        · exact absurd (Option.some.inj isHeld).symm (not_known fresh r before)
        · exact ⟨other, isHeld⟩
    | inr isNew =>
      rw [List.mem_singleton.mp isNew]
      exact ⟨fun _ => ⟨o, if_pos rfl⟩, fun _ => unreleased⟩
  · intro released member
    obtain ⟨r, known, rest⟩ := invariant.released released member
    exact ⟨r, List.mem_append_left _ known, rest⟩

/-! ## Disconnecting -/

theorem disconnectImpl_of {list : HandlerList} (named : list ≠ .named "") (id : HandlerId)
    (registry : Registry η) : registry.disconnectImpl (Connection.of list id).cname id =
      registry.remove list id := by
  cases list with
  | anyPost => rfl
  | named cname =>
    have nonempty : cname ≠ "" := fun empty => named (by rw [empty])
    simp [Registry.disconnectImpl, Connection.of, nonempty]

/-- The handler of a registration disappears from its list, and nothing else does. -/
theorem stored_release {s : Connections η} (invariant : Invariant s) {r : Registration η}
    (member : r ∈ s.registered) (named : r.list ≠ .named "") (list : HandlerList) :
    (s.release (.of r.list r.id)).registry.stored list =
      list.select (live (s.release (.of r.list r.id))) := by
  have remaining : live (s.release (.of r.list r.id)) = (live s).filter fun entry => entry.2.1 ≠ r.id := by
    simp only [live, Connections.release, of_self, of_id, if_true, List.filter_map, List.filter_filter]
    congr 1
    apply List.filter_congr
    intro other _
    by_cases gone : other.id = r.id
    · simp [Registration.entry, gone]
    · simp [Registration.entry, gone]
  have filtered : list.select ((live s).filter fun entry => entry.2.1 ≠ r.id) =
      (list.select (live s)).filter fun entry => entry.1 ≠ r.id := by
    simp only [HandlerList.select, List.filter_filterMap, List.filterMap_filter]
    apply List.filterMap_congr
    intro entry _
    by_cases same : entry.1 = list
    · by_cases gone : entry.2.1 = r.id <;> simp [same, gone, Option.filter]
    · simp [same]
  have removed : (s.release (.of r.list r.id)).registry = s.registry.remove r.list r.id := by
    simp only [Connections.release, Connection.disconnect, of_self, of_id, if_true, disconnectImpl_of named]
  rw [remaining, filtered, removed, Registry.stored_remove, ← invariant.stored]
  split
  next same => rw [same]
  next different =>
    -- the id does not occur in another list
    symm
    rw [List.filter_eq_self]
    rintro ⟨id, handler⟩ entry
    rw [invariant.stored, mem_select, mem_live] at entry
    obtain ⟨other, known, _, same⟩ := entry
    simp only [decide_eq_true_eq]
    rintro rfl
    have isR := invariant.same known member (congrArg (·.2.1) same)
    exact different ((congrArg Prod.fst same).symm.trans (congrArg Registration.list isR))

/-- The connection of a registration is disconnected, and its id with it. -/
theorem invariant_release {s : Connections η} (invariant : Invariant s) {r : Registration η}
    (member : r ∈ s.registered) (named : r.list ≠ .named "") {plain : Nat → Connection}
    {objects : Nat → Option Connection}
    (plainly : ∀ v, (plain v).self = true → s.plain v = plain v)
    (shrinks : ∀ o connection, objects o = some connection → connection.self = true →
      s.objects o = some connection)
    (loses : ∀ r' ∈ s.registered, r'.isScoped = true → ∀ o,
      (held { s with objects } o = some r'.id ↔ held s o = some r'.id ∧ r'.id ≠ r.id)) :
    Invariant { s.release (.of r.list r.id) with plain, objects } := by
  have released : ∀ id, id ∈ (s.release (.of r.list r.id)).released ↔ id ∈ s.released ∨ id = r.id := by
    simp [Connections.release]
  refine ⟨invariant.distinct, stored_release invariant member named, ?_, ?_, ?_, ?_, ?_⟩
  · intro v isSet
    obtain ⟨other, known, unscoped, isOf⟩ :=
      invariant.plain v (by rw [plainly v isSet]; exact isSet)
    exact ⟨other, known, unscoped, (plainly v isSet).symm.trans isOf⟩
  · intro o connection found isSet
    exact invariant.objects o connection (shrinks o connection found isSet) isSet
  · intro other known isScoped o o' owns owns'
    exact invariant.unique other known isScoped o o' ((loses other known isScoped o).mp owns).1
      ((loses other known isScoped o').mp owns').1
  · intro other known isScoped
    show other.id ∉ (s.release (.of r.list r.id)).released ↔ ∃ o, held { s with objects } o = some other.id
    rw [released, not_or, invariant.kept other known isScoped]
    constructor
    · rintro ⟨⟨o, owns⟩, different⟩
      exact ⟨o, (loses other known isScoped o).mpr ⟨owns, different⟩⟩
    · rintro ⟨o, owns⟩
      obtain ⟨owned, different⟩ := (loses other known isScoped o).mp owns
      exact ⟨⟨o, owned⟩, different⟩
  · intro id isReleased
    cases (released id).mp isReleased with
    | inl before => exact invariant.released id before
    | inr same => exact ⟨r, member, same.symm, named⟩

theorem release_unset {s : Connections η} {connection : Connection} (unset : connection.self = false) :
    s.release connection = s := by
  simp [Connections.release, Connection.disconnect, unset]

theorem invariant_disconnect {s : Connections η} (invariant : Invariant s) {v : Nat}
    (careful : Disconnectable s (s.plain v)) :
    Invariant ((s.release (s.plain v)).setPlain v ((s.plain v).disconnect s.registry).1) := by
  have plainly : ∀ other,
      (Function.update s.plain v ((s.plain v).disconnect s.registry).1 other).self = true →
        s.plain other = Function.update s.plain v ((s.plain v).disconnect s.registry).1 other := by
    intro other isSet
    by_cases same : other = v
    · subst same
      simp [Connection.disconnect] at isSet
    · simp [same]
  cases isSet : (s.plain v).self with
  | false =>
    rw [release_unset isSet]
    refine ⟨invariant.distinct, invariant.stored, ?_, invariant.objects, invariant.unique, invariant.kept,
      invariant.released⟩
    intro other isSet
    have same := plainly other isSet
    obtain ⟨r, member, unscoped, isOf⟩ := invariant.plain other (by rw [same]; exact isSet)
    exact ⟨r, member, unscoped, same.symm.trans isOf⟩
  | true =>
    obtain ⟨r, member, unscoped, isOf⟩ := invariant.plain v isSet
    have named := careful isSet r member (by rw [isOf, of_id])
    have invariant' := invariant_release invariant member named plainly (fun _ _ found _ => found) ?_
    · rw [← isOf] at invariant'
      exact invariant'
    · intro other known isScoped o
      -- the registration of a variable has no owner
      have different : other.id ≠ r.id := by
        intro same
        rw [invariant.same known member same, unscoped] at isScoped
        cases isScoped
      exact ⟨fun owns => ⟨owns, different⟩, fun owns => owns.1⟩

theorem invariant_destroy {s : Connections η} (invariant : Invariant s) {o : Nat}
    {connection : Connection} (alive : s.objects o = some connection)
    (careful : Disconnectable s connection) :
    Invariant ((s.release connection).setObject o none) := by
  have shrinks : ∀ other c, Function.update s.objects o none other = some c → c.self = true →
      s.objects other = some c := by
    intro other c found _
    by_cases same : other = o
    · subst same
      simp at found
    · simpa [same] using found
  have owns : ∀ other id, held (s.setObject o none) other = some id ↔
      other ≠ o ∧ held s other = some id := by
    intro other id
    rw [held_setObject]
    by_cases same : other = o
    · simp [same]
    · simp [same]
  cases isSet : connection.self with
  | false =>
    have nothing : held s o = none := by simp [held, alive, isSet]
    have same : held (s.setObject o none) = held s := by
      funext other
      rw [held_setObject]
      by_cases same : other = o
      · simp [same, nothing]
      · simp [same]
    rw [release_unset isSet]
    exact ⟨invariant.distinct, invariant.stored, invariant.plain,
      fun other c found isSet => invariant.objects other c (shrinks other c found isSet) isSet,
      fun r member isScoped => same ▸ invariant.unique r member isScoped,
      fun r member isScoped => same ▸ invariant.kept r member isScoped, invariant.released⟩
  | true =>
    obtain ⟨r, member, rfl⟩ := invariant.objects o connection alive isSet
    have named := careful isSet r member (by rw [of_id])
    apply invariant_release invariant member named (fun _ _ => rfl) shrinks
    intro other known isScoped o'
    refine (owns o' other.id).trans ?_
    constructor
    · rintro ⟨different, isHeld⟩
      refine ⟨isHeld, fun same => different ?_⟩
      apply invariant.unique other known isScoped o' o isHeld
      simp [held, alive, same]
    · rintro ⟨isHeld, different⟩
      refine ⟨?_, isHeld⟩
      rintro rfl
      simp [held, alive] at isHeld
      exact different isHeld.symm

/-! ## Objects -/

/-- An object is constructed that owns no handler which has been registered with an owner. -/
theorem invariant_construct {s : Connections η} (invariant : Invariant s) {o : Nat}
    (dead : s.objects o = none) {connection : Connection} (unowned : connection.self = true →
      ∃ r ∈ s.registered, r.isScoped = false ∧ connection = .of r.list r.id) :
    Invariant (s.setObject o (some connection)) := by
  have owns : ∀ r ∈ s.registered, r.isScoped = true → ∀ other,
      held (s.setObject o (some connection)) other = some r.id ↔ held s other = some r.id := by
    intro r member isScoped other
    rw [held_setObject]
    by_cases same : other = o
    · subst same
      rw [if_pos rfl, held_of_none dead, Option.bind_some, Option.ite_none_right_eq_some, Option.some.injEq]
      constructor
      · rintro ⟨isSet, id⟩
        obtain ⟨plain, known, unscoped, rfl⟩ := unowned isSet
        rw [invariant.same known member (by simpa using id), isScoped] at unscoped
        cases unscoped
      · intro nothing
        cases nothing
    · rw [if_neg same]
  refine ⟨invariant.distinct, invariant.stored, invariant.plain, ?_, ?_, ?_, invariant.released⟩
  · intro other c found isSet
    by_cases same : other = o
    · subst same
      simp only [Connections.setObject, Function.update_self, Option.some.injEq] at found
      subst found
      obtain ⟨r, member, _, isOf⟩ := unowned isSet
      exact ⟨r, member, isOf⟩
    · simp only [Connections.setObject, Function.update_of_ne same] at found
      exact invariant.objects other c found isSet
  · intro r member isScoped first second isFirst isSecond
    exact invariant.unique r member isScoped first second
      ((owns r member isScoped first).mp isFirst) ((owns r member isScoped second).mp isSecond)
  · intro r member isScoped
    exact (invariant.kept r member isScoped).trans
      (exists_congr fun other => (owns r member isScoped other).symm)

/-- Who owns what after a move from `src` to `dst`. -/
theorem held_move {s : Connections η} {dst src : Nat} {connection : Connection}
    (found : s.objects src = some connection) (other : Nat) :
    held ((s.setObject src (some connection.movedFrom)).setObject dst (some connection)) other =
      if other = dst then held s src else if other = src then none else held s other := by
  rw [held_setObject, held_setObject]
  by_cases isDst : other = dst
  · simp [isDst, held, found]
  · simp [isDst, Connection.movedFrom]

theorem invariant_move {s : Connections η} (invariant : Invariant s) {dst src : Nat}
    (different : dst ≠ src) {connection : Connection} (found : s.objects src = some connection)
    (careful : ∀ r ∈ s.registered, held s dst = some r.id → r.isScoped = false) :
    Invariant ((s.setObject src (some connection.movedFrom)).setObject dst (some connection)) := by
  have owns := @held_move _ s dst src connection found
  have unscoped : ∀ r ∈ s.registered, r.isScoped = true → held s dst ≠ some r.id := by
    intro r member isScoped isHeld
    rw [careful r member isHeld] at isScoped
    cases isScoped
  -- the object that has what another had before
  have origin : ∀ {other id},
      held ((s.setObject src (some connection.movedFrom)).setObject dst (some connection)) other =
        some id → (other = dst ∧ held s src = some id) ∨ (other ≠ dst ∧ other ≠ src ∧ held s other = some id) := by
    intro other id isHeld
    rw [owns] at isHeld
    by_cases isDst : other = dst
    · rw [if_pos isDst] at isHeld
      exact .inl ⟨isDst, isHeld⟩
    · rw [if_neg isDst] at isHeld
      by_cases isSrc : other = src
      · rw [if_pos isSrc] at isHeld
        cases isHeld
      · rw [if_neg isSrc] at isHeld
        exact .inr ⟨isDst, isSrc, isHeld⟩
  refine ⟨invariant.distinct, invariant.stored, invariant.plain, ?_, ?_, ?_, invariant.released⟩
  · intro other c isObject isSet
    by_cases isDst : other = dst
    · subst isDst
      simp only [Connections.setObject, Function.update_self, Option.some.injEq] at isObject
      subst isObject
      exact invariant.objects src connection found isSet
    · simp only [Connections.setObject, Function.update_of_ne isDst] at isObject
      by_cases isSrc : other = src
      · subst isSrc
        simp only [Function.update_self, Option.some.injEq] at isObject
        subst isObject
        cases isSet
      · rw [Function.update_of_ne isSrc] at isObject
        exact invariant.objects other c isObject isSet
  · intro r member isScoped first second isFirst isSecond
    have same := invariant.unique r member isScoped
    rcases origin isFirst with ⟨isDst, atSrc⟩ | ⟨_, notSrc, before⟩
    · rcases origin isSecond with ⟨isDst', _⟩ | ⟨_, notSrc, before⟩
      · rw [isDst, isDst']
      · exact absurd (same second src before atSrc) notSrc
    · rcases origin isSecond with ⟨_, atSrc⟩ | ⟨_, _, before'⟩
      · exact absurd (same first src before atSrc) notSrc
      · exact same first second before before'
  · intro r member isScoped
    refine (invariant.kept r member isScoped).trans ?_
    constructor
    · rintro ⟨other, isHeld⟩
      by_cases isSrc : other = src
      · exact ⟨dst, by rw [owns, if_pos rfl, ← isSrc, isHeld]⟩
      · refine ⟨other, ?_⟩
        rw [owns, if_neg, if_neg isSrc, isHeld]
        rintro rfl
        exact unscoped r member isScoped isHeld
    · rintro ⟨other, isHeld⟩
      rcases origin isHeld with ⟨_, atSrc⟩ | ⟨_, _, isHeld⟩
      · exact ⟨src, atSrc⟩
      · exact ⟨other, isHeld⟩

/-! ## Runs -/

/-- An object is not assigned to itself, and both objects are alive. -/
theorem moveAssign_eq {s t : Connections η} {dst src : Nat} (next : s.step (.moveAssign dst src) = some t) :
    dst ≠ src ∧ ∃ connection, s.objects src = some connection ∧
      t = (s.setObject src (some connection.movedFrom)).setObject dst (some connection) := by
  simp only [Connections.step] at next
  split at next
  · cases next
  next different =>
    split at next
    next _ connection _ alive =>
      cases next
      exact ⟨different, connection, alive, rfl⟩
    next => cases next

theorem invariant_step {s t : Connections η} {e : ConnectionsEvent η} (invariant : Invariant s)
    (next : s.step e = some t) (careful : Careful s e) : Invariant t := by
  cases e with
  | register v list id handler =>
    simp only [Connections.step] at next
    split at next
    · cases next
    next fresh =>
      cases next
      exact invariant_register invariant (by simpa using fresh) v list handler
  | registerScoped o list id handler =>
    simp only [Connections.step] at next
    split at next
    · cases next
    next possible =>
      cases next
      simp only [Bool.or_eq_true, not_or, Bool.not_eq_true, Option.isSome_eq_false_iff,
        Option.isNone_iff_eq_none] at possible
      exact invariant_registerScoped invariant possible.1 possible.2 list handler
  | disconnect v =>
    cases next
    exact invariant_disconnect invariant careful
  | construct o =>
    simp only [Connections.step] at next
    split at next
    · cases next
    next dead =>
      cases next
      exact invariant_construct invariant (by simpa using dead) fun isSet => by cases isSet
  | constructFrom o v =>
    simp only [Connections.step] at next
    split at next
    · cases next
    next dead =>
      cases next
      exact invariant_construct invariant (by simpa using dead) (invariant.plain v)
  | moveConstruct o src =>
    simp only [Connections.step] at next
    split at next
    next connection dead alive =>
      cases next
      apply invariant_move invariant _ alive
      · intro r _ isHeld
        rw [held_of_none dead] at isHeld
        cases isHeld
      · rintro rfl
        rw [dead] at alive
        cases alive
    next => cases next
  | moveAssign dst src =>
    obtain ⟨different, connection, alive, rfl⟩ := moveAssign_eq next
    exact invariant_move invariant different alive careful
  | destroy o =>
    simp only [Connections.step] at next
    split at next
    · cases next
    next connection alive =>
      cases next
      exact invariant_destroy invariant alive (careful connection alive)

/-- The connection of a handler for the empty name is taken for that of a handler for all messages. -/
theorem not_owned_release {s t : Connections η} (invariant : Invariant s) {r : Registration η}
    (member : r ∈ s.registered) (unnamed : r.list = .named "")
    (registry : t.registry = (s.release (.of r.list r.id)).registry)
    (released : t.released = (s.release (.of r.list r.id)).released) : ¬ Owned t := by
  intro owned
  have unreleased : r.id ∉ s.released := by
    intro isReleased
    obtain ⟨other, known, same, named⟩ := invariant.released r.id isReleased
    exact named (invariant.same known member same ▸ unnamed)
  have stays : (r.id, r.handler) ∈ t.registry.stored r.list := by
    have before := (invariant.mem_stored member).mpr unreleased
    simp only [registry, unnamed, Connections.release, Connection.disconnect, Connection.of, if_true,
      Registry.disconnectImpl, ne_eq, not_true_eq_false, if_false, Registry.stored_remove, reduceCtorEq]
    exact unnamed ▸ before
  rw [owned.stored, mem_select, mem_live] at stays
  obtain ⟨other, _, notReleased, same⟩ := stays
  have id : other.id = r.id := congrArg (·.2.1) same
  rw [id, released] at notReleased
  exact notReleased (by simp [Connections.release])

theorem not_owned_step {s t : Connections η} {e : ConnectionsEvent η} (invariant : Invariant s)
    (next : s.step e = some t) (careless : ¬ Careful s e) : ¬ Owned t := by
  cases e with
  | register _ _ _ _ | registerScoped _ _ _ _ | construct _ | constructFrom _ _ | moveConstruct _ _ =>
    exact absurd trivial careless
  | disconnect v =>
    cases next
    simp only [Careful, Disconnectable, Classical.not_imp, not_forall, not_not] at careless
    obtain ⟨isSet, r, member, same, unnamed⟩ := careless
    obtain ⟨other, known, _, isOf⟩ := invariant.plain v isSet
    rw [isOf, of_id] at same
    obtain rfl := invariant.same member known same
    apply not_owned_release invariant member unnamed
    · rw [← isOf]
      rfl
    · rw [← isOf]
      rfl
  | destroy o =>
    simp only [Careful, Disconnectable, Classical.not_imp, not_forall, not_not] at careless
    obtain ⟨connection, alive, isSet, r, member, same, unnamed⟩ := careless
    simp only [Connections.step, alive, Option.some.injEq] at next
    subst next
    obtain ⟨other, known, rfl⟩ := invariant.objects o connection alive isSet
    rw [of_id] at same
    obtain rfl := invariant.same member known same
    exact not_owned_release invariant member unnamed rfl rfl
  | moveAssign dst src =>
    simp only [Careful, not_forall, Bool.not_eq_false] at careless
    obtain ⟨r, member, isHeld, isScoped⟩ := careless
    obtain ⟨different, connection, alive, rfl⟩ := moveAssign_eq next
    intro owned
    -- the handler is stored, but nothing owns it any more
    have stored := (invariant.mem_stored member).mpr
      ((invariant.kept r member isScoped).mpr ⟨dst, isHeld⟩)
    obtain ⟨other, owner⟩ := (owned.owned r member isScoped).mp stored
    rw [held_move alive] at owner
    split at owner
    · exact different (invariant.unique r member isScoped dst src isHeld owner)
    next notDst =>
      split at owner
      · cases owner
      · exact notDst (invariant.unique r member isScoped other dst owner isHeld)

/-- The runs in which the handlers are those that have not been disconnected, and those registered with
an owner are stored as long as they have one, are exactly the runs in which no handler for the empty
name is disconnected and nothing is moved onto the owner of such a handler. -/
theorem ownership_runs_iff (events : List (ConnectionsEvent η)) :
    Always Connections.step Owned (Connections.initial : Connections η) events ↔
      Meets Connections.step Careful Connections.initial events := by
  apply @always_iff_meets _ _ _ Invariant
  · exact Invariant.owned
  · exact invariant_step
  · exact not_owned_step
  · refine ⟨List.nodup_nil, fun list => Registry.stored_empty list, ?_, ?_, ?_, ?_, ?_⟩
    · intro v isSet
      cases isSet
    · intro o connection found
      cases found
    · intro r member
      cases member
    · intro r member
      cases member
    · intro id member
      cases member

/-- The owner of a first handler is given a second one, as a variable is that is assigned twice. -/
theorem overwritten_handler_stays :
    ¬ Always Connections.step Owned (Connections.initial : Connections String)
      [.registerScoped 0 .anyPost 1 "handleAny", .registerScoped 1 .anyPost 2 "handleOther",
        .moveAssign 0 1] := by
  intro always
  have reached : exec Connections.step (Connections.initial : Connections String)
      [.registerScoped 0 .anyPost 1 "handleAny", .registerScoped 1 .anyPost 2 "handleOther",
        .moveAssign 0 1] = some _ := rfl
  obtain ⟨o, isHeld⟩ := ((always.last reached).owned ⟨.anyPost, 1, "handleAny", true⟩
    List.mem_cons_self rfl).mp List.mem_cons_self
  cases o with
  | zero => cases isHeld
  | succ o =>
    cases o with
    | zero => cases isHeld
    | succ o => cases isHeld

end Uzel.Verified.HandlerOwnership
