import Uzel.Foundation.Json
import Uzel.Foundation.Runs
import Uzel.Remote

/-! # The order of a channel

The messages that a channel accepts before it is connected wait in `outHighQueue`.  Only the boss
passes them on, and only when it gives out the high priority role; the step that completes the pair
of sessions may be another one, and then the waiting messages are left behind.
`channel_runs_iff` says that the channel keeps its order and strands nothing exactly as long as every
step that completes the pair without passing messages on finds none waiting.
-/

namespace Uzel.Verified.ChannelOrder

open Foundation

/-- What was handed to high priority sessions and what waits is what was accepted, in that order, and
nothing waits on a connected channel. -/
def Ordered (s : ChannelState) : Prop :=
  s.remote.handed ++ s.remote.outHighQueue = s.remote.accepted ∧
    (s.remote.connected = true → s.remote.outHighQueue = [])

/-- The steps that complete the pair of sessions without passing on what waits: the boss gives out the
low priority role, or a priority message assigns the role that is missing. -/
def CompletesPair (json : JsonCodec) (config : UConfig) (s : ChannelState) : ChannelEvent → Prop
  | .addSession sid =>
    (∃ peer, (s.store.session sid).peerNode = some peer ∧ ¬ config.nodeName < peer) ∧
      s.remote.sessionH ≠ none ∧ s.remote.sessionL = none
  | .handlePriorityMsg msg =>
    ∃ sid body, msg.origin = some sid ∧ s.remote.sessionH ≠ some sid ∧ s.remote.sessionL ≠ some sid ∧
      msg.body.parsed json = some body ∧
      ((Priority.ofBody body = .low ∧ s.remote.sessionH ≠ none) ∨
        (Priority.ofBody body = .high ∧ s.remote.sessionL ≠ none))
  | _ => False

/-- Nothing waits when the pair is completed. -/
def CompletesEmpty (json : JsonCodec) (config : UConfig) (s : ChannelState) (e : ChannelEvent) : Prop :=
  CompletesPair json config s e → s.remote.outHighQueue = []

/-- The order of the channel; its low priority queue is never used. -/
structure Lossless (s : ChannelState) : Prop where
  order : s.remote.handed ++ s.remote.outHighQueue = s.remote.accepted
  connected : s.remote.connected = true → s.remote.outHighQueue = []
  unused : s.remote.outLowQueue = []

theorem connected_iff {remote : Remote} :
    remote.connected = true ↔ remote.sessionH ≠ none ∧ remote.sessionL ≠ none := by
  simp [Remote.connected, Option.isSome_iff_ne_none]

section Steps

variable {json : JsonCodec} {config : UConfig}

theorem lossless_send {s : ChannelState} (lossless : Lossless s) {msg : Msg} {changed : Remote}
    {after : Sessions} (final : (s.remote.send json msg s.store).final = some (changed, after)) :
    Lossless ⟨changed, after⟩ := by
  obtain ⟨order, connected, unused⟩ := lossless
  rcases Remote.send_cases final with ⟨_, rfl, rfl⟩ | ⟨queued, _, passed | waits⟩
  · exact ⟨order, connected, unused⟩
  · obtain ⟨high, _, isConnected, rfl, _⟩ := passed
    have nothing := connected isConnected
    exact ⟨by simpa [nothing] using order, connected, unused⟩
  · obtain ⟨notConnected, rfl, _⟩ := waits
    refine ⟨by simp [← order], ?_, unused⟩
    intro isConnected
    exact absurd (notConnected.symm.trans isConnected) (by decide)

theorem lossless_addSession (lawful : json.Lawful) {s : ChannelState} (lossless : Lossless s)
    {sid : SessionId} {changed : Remote} {after : Sessions}
    (empty : CompletesEmpty json config s (.addSession sid))
    (final : (s.remote.addSession json config sid s.store).final = some (changed, after)) :
    Lossless ⟨changed, after⟩ := by
  obtain ⟨order, connected, unused⟩ := lossless
  rcases Remote.addSession_cases lawful final with ⟨_, rfl⟩ | ⟨peer, authenticated, boss | subordinate⟩
  · exact ⟨order, connected, unused⟩
  · rw [boss.2]
    exact ⟨order, connected, unused⟩
  · obtain ⟨isBoss, high | low | more⟩ := subordinate
    · rw [high.2.1]
      exact ⟨by simp [← order], fun _ => rfl, unused⟩
    · obtain ⟨hasHigh, noLow, rfl⟩ := low
      exact ⟨order, fun _ => empty ⟨⟨peer, authenticated, isBoss⟩, hasHigh, noLow⟩, rfl⟩
    · obtain ⟨_, _, ⟨rfl, _⟩ | rfl⟩ := more
      · exact ⟨order, connected, unused⟩
      · exact ⟨order, connected, unused⟩

theorem lossless_handlePriorityMsg {s : ChannelState} (lossless : Lossless s) {msg left : Msg}
    {changed : Remote} {after : Sessions}
    (empty : CompletesEmpty json config s (.handlePriorityMsg msg))
    (final : (s.remote.handlePriorityMsg json config msg s.store).final = some (left, changed, after)) :
    Lossless ⟨changed, after⟩ := by
  obtain ⟨order, connected, unused⟩ := lossless
  rcases Remote.handlePriorityMsg_cases final with ⟨_, rfl, rfl⟩ | ⟨sid, origin, ignored | assigned⟩
  · exact ⟨order, connected, unused⟩
  · obtain ⟨_, rfl, rfl⟩ := ignored
    exact ⟨order, connected, unused⟩
  · obtain ⟨notHigh, notLow, body, parsed, refused | assigned⟩ := assigned
    · obtain ⟨_, rfl, _⟩ := refused
      exact ⟨order, connected, unused⟩
    · obtain ⟨_, rfl, _⟩ := assigned
      have completes := fun role => empty ⟨sid, body, origin, notHigh, notLow, parsed, role⟩
      cases role : Priority.ofBody body with
      | undefined => exact ⟨order, connected, unused⟩
      | control => exact ⟨order, connected, unused⟩
      | low =>
        refine ⟨order, fun isConnected => ?_, unused⟩
        exact completes (.inl ⟨role, (connected_iff.mp isConnected).1⟩)
      | high =>
        refine ⟨order, fun isConnected => ?_, unused⟩
        exact completes (.inr ⟨role, (connected_iff.mp isConnected).2⟩)

theorem lossless_onSessionClosed {s : ChannelState} (lossless : Lossless s) (sid : SessionId) :
    Lossless ⟨s.remote.onSessionClosed sid, s.store⟩ := by
  obtain ⟨order, connected, unused⟩ := lossless
  refine ⟨order, fun isConnected => connected ?_, unused⟩
  obtain ⟨high, low⟩ := connected_iff.mp isConnected
  apply connected_iff.mpr
  constructor
  · intro absent
    exact high (by simp [Remote.onSessionClosed, absent])
  · intro absent
    exact low (by simp [Remote.onSessionClosed, absent])

theorem lossless_step (lawful : json.Lawful) {s t : ChannelState} {e : ChannelEvent}
    (lossless : Lossless s) (next : s.step json config e = some t)
    (empty : CompletesEmpty json config s e) : Lossless t := by
  cases e with
  | send msg =>
    obtain ⟨⟨changed, after⟩, final, rfl⟩ := Option.map_eq_some_iff.mp next
    exact lossless_send lossless final
  | addSession sid =>
    obtain ⟨⟨changed, after⟩, final, rfl⟩ := Option.map_eq_some_iff.mp next
    exact lossless_addSession lawful lossless empty final
  | handlePriorityMsg msg =>
    obtain ⟨⟨left, changed, after⟩, final, rfl⟩ := Option.map_eq_some_iff.mp next
    exact lossless_handlePriorityMsg lossless empty final
  | onSessionClosed sid =>
    cases next
    exact lossless_onSessionClosed lossless sid
  | other store =>
    cases next
    exact ⟨lossless.order, lossless.connected, lossless.unused⟩

/-- A pair that is completed while messages wait strands them. -/
theorem stranded_step (lawful : json.Lawful) {s t : ChannelState} {e : ChannelEvent}
    (next : s.step json config e = some t) (waiting : ¬ CompletesEmpty json config s e) :
    ¬ Ordered t := by
  simp only [CompletesEmpty, Classical.not_imp] at waiting
  obtain ⟨completes, waiting⟩ := waiting
  rintro ⟨_, strands⟩
  apply waiting
  cases e with
  | send _ | onSessionClosed _ | other _ => exact absurd completes id
  | addSession sid =>
    obtain ⟨⟨peer, authenticated, isBoss⟩, hasHigh, noLow⟩ := completes
    obtain ⟨⟨changed, after⟩, final, rfl⟩ := Option.map_eq_some_iff.mp next
    rcases Remote.addSession_cases lawful final with ⟨unknown, _⟩ | ⟨peer', known, cases⟩
    · simp [authenticated] at unknown
    · obtain rfl : peer = peer' := Option.some.inj (authenticated.symm.trans known)
      rcases cases with boss | ⟨_, high | low | more⟩
      · exact absurd boss.1 isBoss
      · exact absurd high.1 hasHigh
      · obtain ⟨_, _, rfl⟩ := low
        exact strands (connected_iff.mpr ⟨hasHigh, by simp⟩)
      · exact absurd noLow more.2.1
  | handlePriorityMsg msg =>
    obtain ⟨sid, body, origin, notHigh, notLow, parsed, role⟩ := completes
    obtain ⟨⟨left, changed, after⟩, final, rfl⟩ := Option.map_eq_some_iff.mp next
    rcases Remote.handlePriorityMsg_cases final with ⟨none_, _⟩ | ⟨sid', origin', cases⟩
    · simp [origin] at none_
    · obtain rfl : sid = sid' := Option.some.inj (origin.symm.trans origin')
      rcases cases with ⟨ignored, _⟩ | ⟨_, _, body', parsed', refused | assigned⟩
      · simp [notHigh, notLow, parsed] at ignored
      · obtain rfl : body = body' := Option.some.inj (parsed.symm.trans parsed')
        simp [refused.1] at role
      · obtain rfl : body = body' := Option.some.inj (parsed.symm.trans parsed')
        obtain ⟨_, rfl, _⟩ := assigned
        rcases role with ⟨low, hasHigh⟩ | ⟨high, hasLow⟩
        · rw [low] at strands
          exact strands (connected_iff.mpr ⟨hasHigh, by simp [Remote.setSlot]⟩)
        · rw [high] at strands
          exact strands (connected_iff.mpr ⟨by simp [Remote.setSlot], hasLow⟩)

/-- The runs in which a channel keeps its order and strands nothing are exactly those in which no
message waits whenever the boss gives out the low priority role, or a priority message assigns the
role that is missing.  The sessions may change in any way between the calls. -/
theorem channel_runs_iff (lawful : json.Lawful) (node : String) (store : Sessions)
    (events : List ChannelEvent) :
    Always (ChannelState.step json config) Ordered ⟨.new node, store⟩ events ↔
      Meets (ChannelState.step json config) (CompletesEmpty json config) ⟨.new node, store⟩ events := by
  apply @always_iff_meets _ _ _ Lossless
  · intro s lossless
    exact ⟨lossless.order, lossless.connected⟩
  · exact lossless_step lawful
  · exact fun _ => stranded_step lawful
  · exact ⟨rfl, fun _ => rfl, rfl⟩

end Steps

/-- Two sessions with the userver of the node `alpha`. -/
def alphaSessions : Sessions where
  now := 0
  nextMsg := 0
  session _ :=
    { Session.new .incoming "10.0.0.7" with
      msg1 := some (Session.authMsg ⟨"alpha", "userver"⟩ 1) }
  written := []

def pingAlpha : Msg := .outgoing ⟨"beta", "userver"⟩ ⟨"uecho", "alpha"⟩ "ping" .empty

/-- A message that is sent before the boss has any session with `alpha` goes out first. -/
theorem channel_runs_first_message :
    Always (ChannelState.step Json.compactJson ⟨"beta", "userver"⟩) Ordered
      ⟨.new "alpha", alphaSessions⟩ [.send pingAlpha, .addSession 0, .addSession 1] := by
  apply (channel_runs_iff Json.compactJson_lawful "alpha" alphaSessions _).mpr
  rintro t ⟨rfl⟩
  refine ⟨fun completes => absurd completes id, ?_⟩
  rintro t ⟨rfl⟩
  refine ⟨fun completes => absurd rfl completes.2.1, ?_⟩
  rintro t ⟨rfl⟩
  exact ⟨fun _ => rfl, trivial⟩

/-- A message that is sent while the boss has only the high priority session with `alpha` stays
behind when the second session makes the channel connected. -/
theorem message_between_sessions_strands :
    ¬ Always (ChannelState.step Json.compactJson ⟨"beta", "userver"⟩) Ordered
      ⟨.new "alpha", alphaSessions⟩ [.addSession 0, .send pingAlpha, .addSession 1] := by
  intro always
  have reached : exec (ChannelState.step Json.compactJson ⟨"beta", "userver"⟩)
      ⟨.new "alpha", alphaSessions⟩ [.addSession 0, .send pingAlpha, .addSession 1] = some _ := rfl
  exact List.cons_ne_nil _ _ ((always.last reached).2 rfl)

end Uzel.Verified.ChannelOrder
