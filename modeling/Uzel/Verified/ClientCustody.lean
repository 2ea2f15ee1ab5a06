import Uzel.Verified.SingleConnection
import Mathlib.Data.List.Perm.Basic

/-! # What becomes of the messages of an application

An `Account` keeps, next to the client, the messages that it has accepted: the one for the
authentication and those that the application sends.  The client has one connection, so no queue is ever
taken over, and `exactly_once` says where each of the messages is at any time: it has been written, or it
has been dropped for its age, or it is in the queue of the session, once, and in the order in which they
have been accepted.
-/

namespace Uzel.Verified.ClientCustody

open Foundation SingleConnection

structure Account where
  client : NetClient
  accepted : List QueuedMsg

def Account.initial (now : Nat) : Account := ⟨.initial now, []⟩

def Account.step (json : JsonCodec) (config : UConfig) (pid : Nat) (account : Account) (e : ClientEvent) :
    Option Account :=
  (account.client.step json config pid e).map fun client =>
    ⟨client, account.accepted ++ accepts json config pid account.client e⟩

def Account.written (account : Account) : List QueuedMsg := account.client.store.written

/-- The last session that the client has created. -/
def Account.session (account : Account) : Session :=
  account.client.store.session (account.client.nextSession - 1)

/-- Each message is in one place, and the messages that are not dropped are in their order. -/
structure ExactlyOnce (account : Account) : Prop where
  places :
    (account.written ++ account.session.dropped ++ account.session.outQueue).Perm account.accepted
  order : (account.written ++ account.session.outQueue).Sublist account.accepted
  elsewhere : ∀ sid, sid + 1 ≠ account.client.nextSession → Untouched (account.client.store.session sid)

/-! ## One session -/

/-- Where the messages of the session are; the front of the queue may be on its way. -/
structure Accounted (written accepted : List QueuedMsg) (ss : Session) : Prop where
  places : (written ++ ss.dropped ++ ss.outQueue).Perm accepted
  order : (written ++ ss.outQueue).Sublist accepted
  onItsWay : ∀ msg, msg ∈ inFlight ss → inFlight ss = [msg] ∧ ss.outQueue.head? = some msg

theorem Accounted.serves {written accepted more gone : List QueuedMsg} {ss after : Session} {now : Nat}
    (accounted : Accounted written accepted ss) (served : Serves now ss after more gone) :
    Accounted (written ++ gone) (accepted ++ more) after := by
  cases served with
  | leaves outQueue dropped fewer =>
    refine ⟨?_, ?_, ?_⟩
    · simpa [outQueue, dropped] using accounted.places
    · simpa [outQueue] using accounted.order
    · intro msg member
      obtain ⟨single, front⟩ := accounted.onItsWay msg (fewer.subset member)
      rw [single] at fewer
      rcases List.sublist_singleton.mp fewer with none | same
      · rw [none] at member
        cases member
      · exact ⟨same, outQueue ▸ front⟩
  | @accepts queued outQueue dropped begun =>
    refine ⟨?_, ?_, ?_⟩
    · rw [outQueue, dropped, List.append_nil, ← List.append_assoc]
      exact accounted.places.append_right _
    · rw [outQueue, List.append_nil, ← List.append_assoc]
      exact accounted.order.append (.refl _)
    · intro msg member
      cases queue : ss.outQueue with
      | nil =>
        -- nothing is on its way when the queue is empty
        have nothing : inFlight ss = [] := by
          apply List.eq_nil_iff_forall_not_mem.mpr
          intro other found
          have front := (accounted.onItsWay other found).2
          simp [queue] at front
        rw [begun, nothing, queue] at member ⊢
        obtain rfl : msg = queued := by simpa using member
        exact ⟨rfl, by rw [outQueue, queue]; rfl⟩
      | cons front rest =>
        have same : inFlight after = inFlight ss := by simp [begun, queue]
        rw [same] at member ⊢
        obtain ⟨single, isFront⟩ := accounted.onItsWay msg member
        refine ⟨single, ?_⟩
        rw [queue] at isFront
        rw [outQueue, queue]
        exact isFront
  | @pops msg outQueue dropped member fewer =>
    obtain ⟨single, isFront⟩ := accounted.onItsWay msg member
    obtain ⟨rest, queue⟩ : ∃ rest, ss.outQueue = msg :: rest := List.head?_eq_some_iff.mp isFront
    have nothing : inFlight after = [] := by
      rw [single] at fewer
      exact List.length_eq_zero_iff.mp (Nat.succ.inj fewer)
    rw [queue, List.tail_cons] at outQueue dropped
    have places := accounted.places
    have order := accounted.order
    rw [queue] at places order
    rw [← List.takeWhile_append_dropWhile (p := (·.expired now)) (l := rest)] at places
    refine ⟨?_, ?_, ?_⟩
    · rw [outQueue, dropped, List.append_nil]
      refine List.Perm.trans ?_ places
      rw [List.perm_iff_count]
      intro other
      simp only [List.count_append, List.count_cons, List.count_nil]
      omega
    · rw [outQueue, List.append_nil, List.append_assoc]
      refine List.Sublist.trans ?_ order
      exact (List.Sublist.refl _).append ((List.dropWhile_sublist _).cons_cons msg)
    · intro other found
      rw [nothing] at found
      cases found

theorem accounted_untouched {ss : Session} (untouched : Untouched ss) : Accounted [] [] ss := by
  refine ⟨?_, ?_, ?_⟩
  · simp [untouched.dropped, untouched.outQueue]
  · simp [untouched.outQueue]
  · simp [inFlight, untouched.writes]

/-! ## Runs -/

/-- The client has a connected session, which the messages are about, or it has accepted none. -/
structure Custody (account : Account) : Prop where
  single : Single account.client
  kept : (∃ sid, Current account.client sid ∧ (account.client.store.session sid).connecting = false ∧
      account.accepted ≠ [] ∧
      Accounted account.written account.accepted (account.client.store.session sid)) ∨
    (account.written = [] ∧ account.accepted = [] ∧
      (∀ sid, Untouched (account.client.store.session sid)) ∧
      ∀ sid, Current account.client sid → (account.client.store.session sid).connecting = true)

variable {json : JsonCodec} {config : UConfig} {pid : Nat}

theorem custody_initial (now : Nat) : Custody (.initial now) :=
  ⟨single_initial now, .inr ⟨rfl, rfl, fun _ => ⟨rfl, rfl, rfl, rfl, rfl, rfl⟩,
    fun _ current => absurd current.1 (Nat.succ_ne_zero _)⟩⟩

theorem untouched_update {s t : NetClient} {sid : SessionId} {ss : Session}
    (all : ∀ sid, Untouched (s.store.session sid)) (untouched : Untouched ss)
    (sessions : t.store.session = Function.update s.store.session sid ss) (other : SessionId) :
    Untouched (t.store.session other) := by
  rw [sessions]
  by_cases same : other = sid
  · rw [same, Function.update_self]
    exact untouched
  · rw [Function.update_of_ne same]
    exact all other

theorem custody_does {s t : NetClient} {accepted more : List QueuedMsg} (custody : Custody ⟨s, accepted⟩)
    (does : Does s t more) : Custody ⟨t, accepted ++ more⟩ := by
  refine ⟨single_does custody.single does, ?_⟩
  have single : Single s := custody.single
  have kept := custody.kept
  simp only [Account.written] at kept ⊢
  cases does with
  | idles sessions written nextSession locals later waiting =>
    simp only [written, sessions, List.append_nil, current_congr nextSession waiting]
    exact kept
  | @attempts ip sessions written nextSession locals later waiting =>
    rcases kept with ⟨sid, current, -⟩ | ⟨noneWritten, noneAccepted, untouched, -⟩
    · have none := current.2
      omega
    · have fresh : Untouched (Session.new .outgoing ip).startConnection := ⟨rfl, rfl, rfl, rfl, rfl, rfl⟩
      refine .inr ⟨written.trans noneWritten, by simp [noneAccepted],
        untouched_update untouched fresh sessions, ?_⟩
      intro sid current
      obtain rfl : sid = s.nextSession := Nat.succ.inj (current.1.trans nextSession)
      rw [sessions, Function.update_self]
      rfl
  | @fails sid ss current connecting failed sessions written nextSession locals later waiting =>
    rcases kept with ⟨other, current', connected, -⟩ | ⟨noneWritten, noneAccepted, untouched, -⟩
    · obtain rfl := current.eq current'
      exact absurd (connected.symm.trans connecting) Bool.false_ne_true
    · refine .inr ⟨written.trans noneWritten, by simp [noneAccepted],
        untouched_update untouched failed.toUntouched sessions, ?_⟩
      intro other current'
      exact absurd (waiting.symm.trans current'.2) Nat.one_ne_zero
  | @serves sid ss more gone current begun connected sessions served isWritten nextSession registers later waiting =>
    have before : Accounted s.store.written accepted (s.store.session sid) ∧ accepted ++ more ≠ [] := by
      rcases kept with ⟨other, current', -, some_, accounted⟩ | ⟨noneWritten, noneAccepted, untouched, going⟩
      · obtain rfl := current.eq current'
        exact ⟨accounted, List.append_ne_nil_of_left_ne_nil some_ _⟩
      · rw [noneWritten, noneAccepted]
        rcases begun with connected | some_
        · exact absurd (connected.symm.trans (going sid current)) Bool.false_ne_true
        · exact ⟨accounted_untouched (untouched sid), some_⟩
    refine .inl ⟨sid, ⟨current.1.trans nextSession.symm, waiting⟩, ?_, before.2, ?_⟩
    · rw [sessions, Function.update_self]
      exact connected
    · rw [sessions, Function.update_self, isWritten]
      exact before.1.serves served

/-- Once the peer is known, the message of the authentication has been accepted. -/
theorem Custody.begun {s : NetClient} {accepted : List QueuedMsg} (custody : Custody ⟨s, accepted⟩)
    {name : String} {sid : SessionId} (registered : s.locals.lookup name = some sid) : accepted ≠ [] := by
  rcases custody.kept with ⟨_, _, _, some_, _⟩ | ⟨_, _, untouched, _⟩
  · exact some_
  · have single : Single s := custody.single
    exact absurd (untouched sid) (single.touched registered)

/-- Before the connect has succeeded there is nothing to send. -/
theorem Custody.nothing {s : NetClient} {accepted : List QueuedMsg} (custody : Custody ⟨s, accepted⟩)
    {sid : SessionId} (created : sid < s.nextSession)
    (connecting : (s.store.session sid).connecting = true) : accepted = [] := by
  have single : Single s := custody.single
  rcases custody.kept with ⟨other, current, connected, -⟩ | ⟨-, none, -⟩
  · rcases single.failed sid created with current' | failed
    · obtain rfl := current.eq current'
      exact absurd (connected.symm.trans connecting) Bool.false_ne_true
    · exact absurd (failed.connecting.symm.trans connecting) Bool.false_ne_true
  · exact none

theorem Custody.exactlyOnce {account : Account} (custody : Custody account) : ExactlyOnce account := by
  rcases custody.kept with ⟨sid, current, -, -, accounted⟩ | ⟨noneWritten, noneAccepted, untouched, -⟩
  · have last : account.session = account.client.store.session sid := by
      rw [Account.session, ← current.1]
      rfl
    refine ⟨last ▸ accounted.places, last ▸ accounted.order, ?_⟩
    intro other different
    exact (custody.single.untouched other).resolve_left fun found => different found.1.1
  · have last : Untouched account.session := untouched _
    refine ⟨?_, ?_, fun other _ => untouched other⟩
    · rw [noneWritten, noneAccepted, last.dropped, last.outQueue]
      exact .refl _
    · rw [noneWritten, noneAccepted, last.outQueue]
      exact .refl _

/-- In every run of an ordinary application, each message that its client has accepted has been written, or
has been dropped for its age, or waits in the queue of its session, in one of these places and once. -/
theorem exactly_once (lawful : json.Lawful) (ordinary : config.appName ≠ "userver") (pid now : Nat)
    (events : List ClientEvent) :
    Always (Account.step json config pid) ExactlyOnce (.initial now) events := by
  have custody : Always (Account.step json config pid) Custody (.initial now) events := by
    apply always_of_invariant _ (custody_initial now)
    rintro ⟨s, accepted⟩ u e custody next
    obtain ⟨t, stepped, rfl⟩ := Option.map_eq_some_iff.mp next
    exact custody_does custody (does_step lawful ordinary custody.single stepped)
  exact custody.mono fun _ custody => custody.exactlyOnce

/-- The userver is known before the message of the authentication has been written, and the application
sends a ping.  When the first write completes, the ping is still in the queue. -/
theorem exactly_once_ping :
    Always (Account.step Json.compactJson ⟨"alpha", "usender"⟩ 7) ExactlyOnce (.initial 0)
      [.resolved (some "127.0.0.1"), .connectHandler 0 true,
        .received 0 (serviceHeader ⟨"alpha", "userver"⟩ "auth") (.tree .empty),
        .send (.outgoing ⟨"alpha", "usender"⟩ ⟨"uecho", "beta"⟩ "ping" .empty), .written 0 0 true] :=
  exactly_once Json.compactJson_lawful (by decide) 7 0 _

end Uzel.Verified.ClientCustody
