import Uzel.Foundation.Json
import Uzel.NetClient
import Uzel.ServerRules
import Mathlib.Data.Nat.Count

/-! # The client and its attempts

The client should always be on its way to a connection or have one.  Its attempts are the outstanding
resolves, the outstanding waits of its timer, and the sessions that connect or are connected.  A step
passes an attempt on, with two exceptions: a peer that `auth` does not want is left at its own pace
while the client starts anew, and the end of a connected session, which nobody listens to, is the end
of an attempt.  `never_gives_up_iff` says that the client gives up exactly when its last attempt ends
so, and `ordinary_client_iff` that for an ordinary application this is the first end of a connected
session.
-/

namespace Uzel.Verified.ClientReconnect

open Foundation

/-- The connection of the session is being made or it is there. -/
def underWay (ss : Session) : Bool := ss.connecting || !ss.stopped

/-- A session of the client is connected and not stopped. -/
def connected (client : NetClient) (sid : SessionId) : Bool :=
  decide (sid < client.nextSession) &&
    (!(client.store.session sid).connecting && !(client.store.session sid).stopped)

/-- A resolve is outstanding, a wait of the timer, or a connection attempt, or a session is connected. -/
def Trying (client : NetClient) : Prop :=
  0 < client.resolves ∨ 0 < client.reconnectTimer.outstanding ∨
    (∃ sid < client.nextSession, (client.store.session sid).connecting = true) ∨
    ∃ sid, connected client sid = true

def live (store : Sessions) (n : Nat) : Nat := Nat.count (fun sid => underWay (store.session sid) = true) n

def attempts (client : NetClient) : Nat :=
  client.resolves + client.reconnectTimer.outstanding + live client.store client.nextSession

/-- A connected session ends: the read operation fails or the input is refused, a write fails, or the
bye has been written. -/
def ends (config : UConfig) (client : NetClient) : ClientEvent → Bool
  | .received sid header body =>
    connected client sid && ((client.store.session sid).authenticated &&
      (Msg.incoming config header body (some sid)).cname.isNone)
  | .readFailed sid => connected client sid
  | .written sid i ok =>
    connected client sid &&
      (match (client.store.session sid).writes[i]? with
        | some (.message _ _) => !ok
        | _ => true)
  | _ => false

/-- The first message of the peer is accepted by the session and not by `auth`. -/
def misconnects (config : UConfig) (client : NetClient) : ClientEvent → Bool
  | .received sid header body =>
    let msg := Msg.incoming config header body (some sid)
    !(client.store.session sid).authenticated &&
      (Session.authenticate config msg && !msg.fromLocal config)
  | _ => false

/-- A connected session ends only while the client has another attempt. -/
def EndsInTime (config : UConfig) (client : NetClient) (e : ClientEvent) : Prop :=
  ends config client e = true → 2 ≤ attempts client

/-! ## Counting -/

theorem count_agree {f g : Nat → Bool} {n : Nat} (agree : ∀ m < n, f m = g m) :
    Nat.count (fun m => f m = true) n = Nat.count (fun m => g m = true) n := by
  induction n with
  | zero => rfl
  | succ n inductionHypothesis =>
    simp only [Nat.count_succ]
    rw [inductionHypothesis fun m less => agree m (Nat.lt_succ_of_lt less), agree n (Nat.lt_succ_self n)]

theorem count_update (f : Nat → Bool) {k n : Nat} (below : k < n) (b : Bool) :
    Nat.count (fun m => Function.update f k b m = true) n + (f k).toNat =
      Nat.count (fun m => f m = true) n + b.toNat := by
  induction n with
  | zero => omega
  | succ n inductionHypothesis =>
    simp only [Nat.count_succ]
    by_cases last : n = k
    · subst last
      have earlier : Nat.count (fun m => Function.update f n b m = true) n =
          Nat.count (fun m => f m = true) n :=
        count_agree fun m less => Function.update_of_ne (Nat.ne_of_lt less) _ _
      rw [earlier, Function.update_self]
      cases f n <;> cases b <;> simp
    · have before := inductionHypothesis (by omega)
      rw [Function.update_of_ne last]
      omega

theorem underWay_set (store : Sessions) (sid : SessionId) (ss : Session) :
    (fun other => underWay ((store.set sid ss).session other)) =
      Function.update (fun other => underWay (store.session other)) sid (underWay ss) :=
  Function.comp_update underWay store.session sid ss

theorem live_set {store : Sessions} {sid : SessionId} {n : Nat} (created : sid < n) (ss : Session) :
    live (store.set sid ss) n + (underWay (store.session sid)).toNat = live store n + (underWay ss).toNat := by
  have updated := count_update (fun other => underWay (store.session other)) created (underWay ss)
  rw [← underWay_set] at updated
  exact updated

theorem live_other {store : Sessions} {sid : SessionId} {n : Nat} (later : n ≤ sid) (ss : Session) :
    live (store.set sid ss) n = live store n :=
  count_agree fun m less => by
    rw [Sessions.set_session, Function.update_of_ne (Nat.ne_of_lt (Nat.lt_of_lt_of_le less later))]

theorem carried_underWay : Session.Carried fun ss after => underWay after = underWay ss :=
  .of_endpoint (fun first second => second.trans first) (fun same => by unfold underWay; rw [same])
    (fun _ _ => rfl) fun _ _ => rfl

section Attempts

variable {json : JsonCodec} {config : UConfig} {pid : Nat} {client : NetClient} {sid : SessionId}

theorem attempts_store {store : Sessions}
    (carries : client.store.Carries (fun ss after => underWay after = underWay ss) store) :
    attempts (client.withStore store) = attempts client := by
  have same : live store client.nextSession = live client.store client.nextSession :=
    count_agree fun other _ => carries other
  show _ + live store client.nextSession = _
  rw [same]
  rfl

theorem attempts_set {ss : Session} (same : underWay ss = underWay (client.store.session sid)) :
    attempts (client.withStore (client.store.set sid ss)) = attempts client :=
  attempts_store (.of_set carried_underWay same)

theorem attempts_update (created : sid < client.nextSession) (ss : Session) :
    attempts (client.withStore (client.store.set sid ss)) + (underWay (client.store.session sid)).toNat =
      attempts client + (underWay ss).toNat := by
  have changed := @live_set client.store sid _ created ss
  show client.resolves + client.reconnectTimer.outstanding +
    live (client.store.set sid ss) client.nextSession + _ = _
  unfold attempts
  omega

theorem attempts_reconnectAfterDelay : attempts client.reconnectAfterDelay = attempts client + 1 := by
  show client.resolves + (client.reconnectTimer.expiresAfter _ _).asyncWait.outstanding +
    live client.store client.nextSession = attempts client + 1
  rw [Timer.outstanding_asyncWait, Timer.outstanding_expiresAfter]
  unfold attempts
  omega

/-- A session that ends while it is connected takes an attempt with it. -/
theorem attempts_ended {ss : Session} (stopped : ss.stopped = true)
    (attempt : ss.connecting = (client.store.session sid).connecting) :
    attempts (client.withStore (client.store.set sid ss)) + (connected client sid).toNat =
      attempts client := by
  by_cases created : sid < client.nextSession
  · have changed := attempts_update created ss
    have before : underWay (client.store.session sid) = (underWay ss || connected client sid) := by
      simp only [underWay, connected, stopped, attempt, created]
      cases (client.store.session sid).connecting <;> simp
    have after : (underWay ss && connected client sid) = false := by
      simp only [underWay, connected, stopped, attempt]
      cases (client.store.session sid).connecting <;> simp
    rw [before] at changed
    cases going : underWay ss <;> cases gone : connected client sid <;>
      simp only [going, gone, Bool.or_false, Bool.or_true, Bool.toNat_true, Bool.toNat_false,
        Bool.and_true, reduceCtorEq] at changed after ⊢ <;>
      omega
  · have same := @live_other client.store sid _ (Nat.le_of_not_lt created) ss
    show client.resolves + client.reconnectTimer.outstanding +
      live (client.store.set sid ss) client.nextSession + _ = _
    simp [same, connected, created, attempts]

theorem attempts_stop : attempts (client.stop sid) + (connected client sid).toNat = attempts client := by
  unfold NetClient.stop
  dsimp only
  split
  next stopped => simp [connected, stopped]
  next => exact attempts_ended rfl rfl

theorem attempts_readFailed :
    attempts (client.readFailed sid) + (connected client sid).toNat = attempts client := by
  generalize isIdle : { client.store.session sid with reading := .idle } = idle
  have stopped := @attempts_stop (client.withStore (client.store.set sid idle)) sid
  have same : connected (client.withStore (client.store.set sid idle)) sid = connected client sid := by
    simp [connected, NetClient.withStore, ← isIdle]
  rw [same, attempts_set (by rw [← isIdle]; rfl)] at stopped
  rw [NetClient.readFailed, isIdle]
  exact stopped

theorem attempts_onWrite {i : Nat} {ok : Bool} {outcome : Outcome Sessions}
    (completed : client.store.onWrite json config sid i ok = some outcome) :
    outcome.All fun store =>
      attempts (client.withStore store) + (ends config client (.written sid i ok)).toNat =
        attempts client := by
  rcases Sessions.onWrite_cases completed with ⟨msg, rfl, found, popped⟩ | ⟨other, rfl⟩
  · apply popped.mono
    rintro after ⟨ss, endpoint, _, rfl⟩
    have goesOn : ends config client (.written sid i true) = false := by simp [ends, found]
    rw [goesOn]
    have same : underWay ss = underWay (client.store.session sid) := by
      unfold underWay
      rw [endpoint]
    exact attempts_set same
  · have ended : ends config client (.written sid i ok) = connected client sid := by
      simp only [ends]
      split
      next msg live found =>
        cases ok with
        | true => exact absurd found (other msg live rfl)
        | false => simp
      next => simp
    rw [ended]
    exact attempts_ended rfl rfl

theorem attempts_auth (lawful : json.Lawful) {msg1 : Msg}
    (known : (client.store.session sid).msg1 = some msg1) :
    client.auth json config sid = .hung ∨ ∃ after, client.auth json config sid = .done after ∧
      attempts after = attempts client + (!msg1.fromLocal config).toNat := by
  simp only [NetClient.auth, known]
  cases isLocal : msg1.fromLocal config with
  | true =>
    simp only [if_true]
    cases registered : client.locals.lookup msg1.from.app with
    | none => exact .inr ⟨_, rfl, rfl⟩
    | some old =>
      dsimp only
      have carries := Sessions.carries_takeOverSession carried_underWay sid old client.store
      rcases Sessions.takeOverSession_returns sid old client.store with ⟨store, taken⟩ | hangs
      · rw [taken] at carries ⊢
        exact .inr ⟨_, rfl, attempts_store carries⟩
      · rw [hangs]
        exact .inl rfl
  | false =>
    have carries := Sessions.carries_gracefullClose carried_underWay json config sid "bad auth" client.store
    obtain ⟨store, closed⟩ := Sessions.gracefullClose_done config lawful sid "bad auth" client.store
    rw [closed] at carries
    simp only [Bool.false_eq_true, if_false, closed, Outcome.map_done, Outcome.andThen_done]
    refine .inr ⟨_, rfl, ?_⟩
    rw [attempts_reconnectAfterDelay, attempts_store carries]
    rfl

/-- A message raises in the dispatcher if it has no name; else it costs nothing. -/
theorem dispatchMsg_cases (lawful : json.Lawful) (header : PTree) (body : Body) :
    let authenticated := (client.store.session sid).authenticated
    let unnamed := (Msg.incoming config header body (some sid)).cname.isNone
    let outcome := client.dispatchMsg json config sid header body
    (authenticated = true ∧ unnamed = true ∧ outcome = .raised client) ∨
      ((authenticated && unnamed) = false ∧ (outcome = .hung ∨ ∃ after, outcome = .done after ∧
        attempts after = attempts client +
          (misconnects config client (.received sid header body)).toNat)) := by
  dsimp only
  generalize isMsg : Msg.incoming config header body (some sid) = msg
  simp only [NetClient.dispatchMsg, misconnects, isMsg]
  cases known : (client.store.session sid).authenticated with
  | true =>
    cases unnamed : msg.cname.isNone with
    | true => exact .inl ⟨rfl, rfl, by simp⟩
    | false => exact .inr ⟨rfl, .inr ⟨client, by simp, by simp⟩⟩
  | false =>
    refine .inr ⟨rfl, ?_⟩
    simp only [Bool.false_eq_true, if_false]
    cases passed : Session.authenticate config msg with
    | true =>
      simp only [if_true]
      have marked : attempts (client.withStore
          (client.store.set sid { client.store.session sid with msg1 := some msg })) = attempts client :=
        attempts_set rfl
      have authed := @attempts_auth json config (client.withStore
        (client.store.set sid { client.store.session sid with msg1 := some msg })) sid lawful msg
        (by simp [NetClient.withStore])
      rw [marked] at authed
      simpa using authed
    | false =>
      obtain ⟨store, closed⟩ := Sessions.gracefullClose_done config lawful sid "authentication failed"
        client.store
      have carries := Sessions.carries_gracefullClose carried_underWay json config sid
        "authentication failed" client.store
      rw [closed] at carries
      simp only [Bool.false_eq_true, if_false, closed, Outcome.map_done]
      exact .inr ⟨_, rfl, attempts_store carries⟩

theorem attempts_connectHandler {ok : Bool} {outcome : Outcome NetClient}
    (created : sid < client.nextSession)
    (completed : client.connectHandler json config pid sid ok = some outcome) :
    outcome.All fun after => attempts after = attempts client := by
  simp only [NetClient.connectHandler] at completed
  split at completed
  · cases completed
  next enabled =>
    generalize isFinished : { client.store.session sid with connecting := false } = finished at completed
    have connecting : (client.store.session sid).connecting = true := by
      cases same : (client.store.session sid).connecting with
      | true => rfl
      | false => simp [same] at enabled
    have left : underWay finished = !(client.store.session sid).stopped := by
      rw [← isFinished]
      exact Bool.false_or _
    have changed := attempts_update created finished
    rw [left, show underWay (client.store.session sid) = true by simp [underWay, connecting]] at changed
    cases ok with
    | true =>
      have running : (client.store.session sid).stopped = false := by simpa [connecting] using enabled
      rw [if_pos rfl] at completed
      cases completed
      apply Outcome.all_map.mpr
      apply (Sessions.carries_start carried_underWay (fun _ _ => rfl) json config pid sid _).mono
      intro store carries
      rw [attempts_store carries]
      rw [running] at changed
      exact Nat.add_right_cancel changed
    | false =>
      rw [if_neg Bool.false_ne_true] at completed
      cases completed
      -- the attempt goes on in the timer
      have stopped := @attempts_stop
        (client.withStore (client.store.set sid finished)).reconnectAfterDelay sid
      have same : connected (client.withStore (client.store.set sid finished)).reconnectAfterDelay sid =
          !(client.store.session sid).stopped := by
        simp [connected, NetClient.reconnectAfterDelay, NetClient.withStore, created, ← isFinished]
      rw [same, attempts_reconnectAfterDelay] at stopped
      rw [Bool.toNat_true] at changed
      show attempts _ = attempts client
      omega

theorem attempts_connectResolved (answer : Option String) :
    attempts (client.connectResolved answer) = attempts client + 1 := by
  cases answer with
  | none => exact attempts_reconnectAfterDelay
  | some ip =>
    generalize isNew : (Session.new .outgoing ip).startConnection = ss
    have earlier := @live_other client.store client.nextSession _ (Nat.le_refl _) ss
    have created : live (client.store.set client.nextSession ss) (client.nextSession + 1) =
        live client.store client.nextSession + 1 := by
      rw [live, Nat.count_succ, ← live, earlier]
      simp [← isNew, underWay, Session.startConnection]
    rw [NetClient.connectResolved, isNew]
    show client.resolves + client.reconnectTimer.outstanding +
      live (client.store.set client.nextSession ss) (client.nextSession + 1) = _
    rw [created]
    rfl

theorem attempts_received (lawful : json.Lawful) {header : PTree} {body : Body} {after : NetClient}
    (next : client.received json config sid header body = some after) :
    attempts after + (ends config client (.received sid header body)).toNat =
      attempts client + (misconnects config client (.received sid header body)).toNat := by
  simp only [NetClient.received] at next
  split at next
  next =>
    rcases @dispatchMsg_cases json config client sid lawful header body with
      ⟨known, unnamed, raised⟩ | ⟨named, handled⟩
    · rw [raised] at next
      cases body with
      | raw bytes => cases next
      | tree tree =>
        cases next
        have ended := @attempts_readFailed client sid
        simpa [ends, misconnects, known, unnamed] using ended
    · have stays : ends config client (.received sid header body) = false := by
        rw [ends, named, Bool.and_false]
      rw [stays]
      rcases handled with hangs | ⟨u, done, accounted⟩
      · rw [hangs] at next
        cases next
      · rw [done] at next
        cases next
        exact accounted
  next => cases next

theorem attempts_step (lawful : json.Lawful) {s t : NetClient} {e : ClientEvent}
    (next : s.step json config pid e = some t) :
    attempts t + (ends config s e).toNat = attempts s + (misconnects config s e).toNat := by
  cases e with
  | tick elapsed => cases next; rfl
  | resolved answer =>
    simp only [NetClient.step] at next
    split at next
    next outstanding =>
      cases next
      show attempts _ = attempts s
      rw [attempts_connectResolved]
      unfold attempts
      dsimp only
      omega
    next => cases next
  | fire =>
    obtain ⟨timer, fires, rfl⟩ := Option.map_eq_some_iff.mp next
    show s.resolves + timer.outstanding + _ = attempts s
    rw [Timer.outstanding_fire fires]
    rfl
  | onTimer i =>
    obtain ⟨ok, queued, rfl⟩ := Option.map_eq_some_iff.mp next
    have queued := (List.getElem?_eq_some_iff.mp queued).1
    show s.resolves + 1 + (s.reconnectTimer.waiting + (s.reconnectTimer.completions.eraseIdx i).length) +
      live s.store s.nextSession = attempts s
    rw [List.length_eraseIdx_of_lt queued]
    unfold attempts Timer.outstanding
    omega
  | connectHandler sid ok =>
    simp only [NetClient.step] at next
    split at next
    next created =>
      obtain ⟨outcome, completed, returned⟩ := Option.bind_eq_some_iff.mp next
      exact NetClient.returned_all (attempts_connectHandler created completed) returned
    next => cases next
  | received sid header body =>
    simp only [NetClient.step] at next
    split at next
    · exact attempts_received lawful next
    · cases next
  | readAgain sid processor =>
    obtain ⟨_, rfl⟩ := NetClient.step_readAgain next
    exact attempts_set rfl
  | readFailed sid =>
    obtain ⟨_, rfl⟩ := NetClient.step_readFailed next
    exact attempts_readFailed
  | written sid i ok =>
    obtain ⟨outcome, completed, returned⟩ := Option.bind_eq_some_iff.mp next
    have accounted : (outcome.map s.withStore).All fun after =>
        attempts after + (ends config s (.written sid i ok)).toNat = attempts s :=
      Outcome.all_map.mpr (attempts_onWrite completed)
    exact NetClient.returned_all accounted returned
  | send msg =>
    obtain ⟨outcome, called, next⟩ := Option.bind_eq_some_iff.mp next
    obtain ⟨sid, _, rfl⟩ := Option.map_eq_some_iff.mp called
    rw [Outcome.final_map] at next
    obtain ⟨store, left, rfl⟩ := Option.map_eq_some_iff.mp next
    exact attempts_store ((Sessions.carries_putOutQueue carried_underWay json sid msg s.store).of_final left)

end Attempts

/-! ## Runs -/

theorem trying_iff {client : NetClient} : Trying client ↔ 0 < attempts client := by
  have someLive : 0 < live client.store client.nextSession ↔
      (∃ sid < client.nextSession, (client.store.session sid).connecting = true) ∨
        ∃ sid, connected client sid = true := by
    rw [Nat.pos_iff_ne_zero, live, Nat.count_ne_iff_exists]
    simp only [underWay, connected, Bool.or_eq_true, Bool.and_eq_true, decide_eq_true_eq,
      Bool.not_eq_true']
    constructor
    · rintro ⟨sid, created, going⟩
      cases connecting : (client.store.session sid).connecting with
      | true => exact .inl ⟨sid, created, connecting⟩
      | false => exact .inr ⟨sid, created, connecting, by simpa [connecting] using going⟩
    · rintro (⟨sid, created, connecting⟩ | ⟨sid, created, _, running⟩)
      · exact ⟨sid, created, .inl connecting⟩
      · exact ⟨sid, created, .inr running⟩
  unfold Trying attempts
  rw [← someLive]
  omega

theorem attempts_initial (now : Nat) : attempts (.initial now) = 1 := rfl

/-- A connected session that ends has not been misconnected by the same message. -/
theorem not_misconnects {config : UConfig} {client : NetClient} {e : ClientEvent}
    (ended : ends config client e = true) : misconnects config client e = false := by
  cases e with
  | received sid header body =>
    simp only [ends, Bool.and_eq_true] at ended
    simp [misconnects, ended.2.1]
  | _ => rfl

section Runs

variable {json : JsonCodec} {config : UConfig} {pid : Nat}

/-- The client never gives up in exactly those runs in which a connected session ends only while the
client has another attempt. -/
theorem never_gives_up_iff (lawful : json.Lawful) (config : UConfig) (pid now : Nat)
    (events : List ClientEvent) :
    Always (NetClient.step json config pid) Trying (.initial now) events ↔
      Meets (NetClient.step json config pid) (EndsInTime config) (.initial now) events := by
  apply @always_iff_meets _ _ _ Trying
  · exact id
  · intro s t e trying next inTime
    rw [trying_iff] at trying ⊢
    have accounted := attempts_step lawful next
    cases ended : ends config s e with
    | true =>
      have others := inTime ended
      rw [ended, Bool.toNat_true] at accounted
      omega
    | false =>
      rw [ended, Bool.toNat_false] at accounted
      omega
  · intro s t e trying next last
    rw [trying_iff] at trying ⊢
    obtain ⟨ended, alone⟩ := Classical.not_imp.mp last
    have accounted := attempts_step lawful next
    rw [ended, not_misconnects ended, Bool.toNat_true, Bool.toNat_false] at accounted
    omega
  · rw [trying_iff, attempts_initial]
    exact Nat.one_pos

/-- An ordinary application accepts only the userver of its own node, so no peer is left to itself. -/
theorem not_misconnects_ordinary {client : NetClient} (ordinary : config.appName ≠ "userver")
    (e : ClientEvent) : misconnects config client e = false := by
  cases e with
  | received sid header body =>
    simp only [misconnects, Session.authenticate, Msg.fromLocal, ordinary, if_false]
    split
    · simp
    · cases config.isLocalNode (Msg.incoming config header body (some sid)).from.node <;> simp
  | _ => rfl

/-- An ordinary application makes one attempt at a time, and it never gives up in exactly those runs in
which no connected session ends. -/
theorem ordinary_client_iff (lawful : json.Lawful) (ordinary : config.appName ≠ "userver")
    (pid now : Nat) (events : List ClientEvent) :
    Always (NetClient.step json config pid) Trying (.initial now) events ↔
      Meets (NetClient.step json config pid) (fun client e => ends config client e = false)
        (.initial now) events := by
  apply @always_iff_meets _ _ _ fun client => attempts client = 1
  · intro s single
    rw [trying_iff, single]
    exact Nat.one_pos
  · intro s t e single next stays
    have accounted := attempts_step lawful next
    rw [stays, not_misconnects_ordinary ordinary e] at accounted
    exact accounted.trans single
  · intro s t e single next ended
    rw [Bool.not_eq_false] at ended
    have accounted := attempts_step lawful next
    rw [ended, not_misconnects ended, single] at accounted
    rw [trying_iff]
    exact Nat.not_lt.mpr (Nat.le_of_eq (Nat.add_right_cancel accounted))
  · exact attempts_initial now

end Runs

/-- The lookup fails once; after the delay the client finds its server. -/
theorem client_finds_server :
    Always (NetClient.step Json.compactJson ⟨"alpha", "uecho"⟩ 7) Trying (.initial 0)
      [.resolved none, .tick 10000000000, .fire, .onTimer 0, .resolved (some "127.0.0.1"),
        .connectHandler 0 true] := by
  apply (never_gives_up_iff Json.compactJson_lawful _ _ _ _).mpr
  apply meets_of_all
  simp [EndsInTime, ends]

/-- The server closes the connection: the client is told by `s_recv_error` and `s_closed`, to which
nothing is connected, and it does not try again. -/
theorem closed_connection_gives_up :
    ¬ Always (NetClient.step Json.compactJson ⟨"alpha", "uecho"⟩ 7) Trying (.initial 0)
      [.resolved (some "127.0.0.1"), .connectHandler 0 true, .readFailed 0] := by
  intro always
  have reached : (exec (NetClient.step Json.compactJson ⟨"alpha", "uecho"⟩ 7) (.initial 0)
      [.resolved (some "127.0.0.1"), .connectHandler 0 true, .readFailed 0]).map attempts = some 0 := by
    decide +kernel
  obtain ⟨client, executed, none⟩ := Option.map_eq_some_iff.mp reached
  have trying := trying_iff.mp (always.last executed)
  omega

end Uzel.Verified.ClientReconnect
