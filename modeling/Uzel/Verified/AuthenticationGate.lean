import Uzel.Chronicle
import Uzel.Foundation.Json

/-! # What gets through to the dispatcher

`session::dispatchMsg` dispatches the messages of an authenticated session only, and it authenticates a
session once: so much holds of every run (`entered_runs`).  A message that fails `authenticate` is meant
to be the last one, but it only asks for a graceful close.  The read loop goes on, and the next
message may pass.  `gate_runs_iff` says that the runs in which a failure is final are exactly those
whose sessions are authenticated by their first message or not at all.
-/

namespace Uzel.Verified.AuthenticationGate

open Foundation

/-- The message has passed `authenticate`, and `s_auth` has been emitted. -/
def Passed (verdict : Verdict) : Prop := ∃ msg, verdict = .authenticated msg

/-- Nothing is dispatched before a message has passed, no second one passes, and the first message of
the session is the one that did. -/
structure Entered (msg1 : Option Msg) (verdicts : List Verdict) : Prop where
  dispatched : ∀ before, before <+: verdicts → .dispatched ∈ before → ∃ verdict ∈ before, Passed verdict
  once : verdicts.Pairwise fun earlier later => Passed earlier → ¬ Passed later
  stays : ∀ msg, .authenticated msg ∈ verdicts → msg1 = some msg

/-- After a message that has been refused all others are. -/
def Final (verdicts : List Verdict) : Prop :=
  verdicts.Pairwise fun earlier later => earlier = .refused → later = .refused

/-- The gate of every session. -/
def Gate (c : Chronicle) : Prop :=
  ∀ sid, Entered (c.server.store.session sid).msg1 (c.verdicts sid) ∧ Final (c.verdicts sid)

/-- A message that would authenticate a session is the first message of it. -/
def FirstOrNever (config : UConfig) (c : Chronicle) : ServerEvent → Prop
  | .received sid header body =>
    (c.server.store.session sid).msg1 = none →
      Session.authenticate config (.incoming config header body (some sid)) = true → c.verdicts sid = []
  | _ => True

/-! ## One more message -/

/-- The gate, with what an unauthenticated and an authenticated session have heard so far. -/
structure Entry (msg1 : Option Msg) (verdicts : List Verdict) : Prop extends Entered msg1 verdicts where
  waiting : msg1 = none → ∀ verdict ∈ verdicts, verdict = .refused
  opened : ∀ msg, msg1 = some msg → .authenticated msg ∈ verdicts

section OneMessage

variable {msg1 : Option Msg} {msg : Msg} {verdicts : List Verdict}

theorem entry_refused (entry : Entry none verdicts) : Entry none (verdicts ++ [.refused]) where
  dispatched := by
    intro before first member
    rcases List.prefix_concat_iff.mp first with rfl | first
    · have member : Verdict.dispatched ∈ verdicts := by simpa using member
      cases entry.waiting rfl _ member
    · exact entry.dispatched before first member
  once := by
    refine List.pairwise_append.mpr ⟨entry.once, List.pairwise_singleton _ _, ?_⟩
    rintro earlier _ later member _ ⟨msg, passed⟩
    rw [List.mem_singleton.mp member] at passed
    cases passed
  stays msg member := entry.stays msg (by simpa using member)
  waiting _ verdict member := by
    rcases List.mem_append.mp member with before | last
    · exact entry.waiting rfl verdict before
    · exact List.mem_singleton.mp last
  opened := nofun

theorem entry_authenticated (entry : Entry none verdicts) (msg : Msg) :
    Entry (some msg) (verdicts ++ [.authenticated msg]) where
  dispatched := by
    intro before first member
    rcases List.prefix_concat_iff.mp first with rfl | first
    · exact ⟨.authenticated msg, by simp, msg, rfl⟩
    · exact entry.dispatched before first member
  once := by
    refine List.pairwise_append.mpr ⟨entry.once, List.pairwise_singleton _ _, ?_⟩
    rintro earlier before _ _ ⟨other, passed⟩
    rw [entry.waiting rfl earlier before] at passed
    cases passed
  stays other member := by
    rcases List.mem_append.mp member with before | last
    · cases entry.waiting rfl _ before
    · cases List.mem_singleton.mp last
      rfl
  waiting := nofun
  opened other known := by
    cases known
    simp

theorem entry_dispatched (entry : Entry (some msg) verdicts) :
    Entry (some msg) (verdicts ++ [.dispatched]) where
  dispatched := by
    intro before first member
    rcases List.prefix_concat_iff.mp first with rfl | first
    · exact ⟨.authenticated msg, List.mem_append_left _ (entry.opened msg rfl), msg, rfl⟩
    · exact entry.dispatched before first member
  once := by
    refine List.pairwise_append.mpr ⟨entry.once, List.pairwise_singleton _ _, ?_⟩
    rintro earlier _ later member _ ⟨other, passed⟩
    rw [List.mem_singleton.mp member] at passed
    cases passed
  stays other member := entry.stays other (by simpa using member)
  waiting := nofun
  opened other known := List.mem_append_left _ (entry.opened other known)

/-- A verdict that is not a refusal needs a session that has not been refused. -/
theorem final_append {verdict : Verdict} (final : Final verdicts)
    (unrefused : verdict ≠ .refused → .refused ∉ verdicts) : Final (verdicts ++ [verdict]) := by
  refine List.pairwise_append.mpr ⟨final, List.pairwise_singleton _ _, ?_⟩
  intro earlier before later last refused
  obtain rfl := List.mem_singleton.mp last
  by_contra other
  exact unrefused other (refused ▸ before)

end OneMessage

/-! ## Runs -/

section Runs

variable {json : JsonCodec} {config : UConfig} {pid : Nat} {c d : Chronicle} {e : ServerEvent}

/-- What an event does to the first message of a session and to the verdicts on its messages. -/
inductive Heard (config : UConfig) (sid : SessionId) :
    ServerEvent → Option Msg → List Verdict → Option Msg → List Verdict → Prop where
  | nothing (e : ServerEvent) (msg1 : Option Msg) (verdicts : List Verdict) :
      Heard config sid e msg1 verdicts msg1 verdicts
  | refused (header : PTree) (body : Body) (verdicts : List Verdict) :
      Heard config sid (.received sid header body) none verdicts none (verdicts ++ [.refused])
  | authenticated {header : PTree} {body : Body} {msg : Msg} {verdicts : List Verdict}
      (isMsg : msg = .incoming config header body (some sid))
      (passed : Session.authenticate config msg = true) :
      Heard config sid (.received sid header body) none verdicts (some msg)
        (verdicts ++ [.authenticated msg])
  | dispatched (header : PTree) (body : Body) (msg : Msg) (verdicts : List Verdict) :
      Heard config sid (.received sid header body) (some msg) verdicts (some msg)
        (verdicts ++ [.dispatched])

theorem heard_step (lawful : json.Lawful) (blank : c.server.Blank)
    (next : c.step json config pid e = some d) (sid : SessionId) :
    Heard config sid e (c.server.store.session sid).msg1 (c.verdicts sid)
      (d.server.store.session sid).msg1 (d.verdicts sid) := by
  have after := (Server.msg1_step lawful blank (Chronicle.step_server next)).2 sid
  obtain ⟨server, _, rfl⟩ := Option.map_eq_some_iff.mp next
  rw [after]
  cases e with
  | received other header body =>
    by_cases same : sid = other
    · subst same
      simp only [Server.msg1After, if_true, Function.update_self]
      cases known : (c.server.store.session sid).msg1 with
      | some msg =>
        have verdict : c.server.verdict config sid header body = .dispatched := by
          simp [Server.verdict, Session.authenticated, known]
        rw [verdict]
        exact .dispatched header body msg _
      | none =>
        by_cases passed : Session.authenticate config (.incoming config header body (some sid)) = true
        · have verdict : c.server.verdict config sid header body =
              .authenticated (.incoming config header body (some sid)) := by
            simp [Server.verdict, Session.authenticated, known, passed]
          rw [verdict]
          exact .authenticated rfl passed
        · have verdict : c.server.verdict config sid header body = .refused := by
            simp [Server.verdict, Session.authenticated, known, passed]
          rw [verdict]
          exact .refused header body _
    · simp only [Server.msg1After, same, if_false, Function.update_of_ne same]
      exact .nothing _ _ _
  | _ => exact .nothing _ _ _

/-- What every run keeps. -/
structure Guarded (c : Chronicle) : Prop where
  blank : c.server.Blank
  entry : ∀ sid, Entry (c.server.store.session sid).msg1 (c.verdicts sid)

theorem guarded_step (lawful : json.Lawful) (guarded : Guarded c)
    (next : c.step json config pid e = some d) : Guarded d := by
  refine ⟨Server.blank_step lawful guarded.blank (Chronicle.step_server next), ?_⟩
  intro sid
  have entry := guarded.entry sid
  have heard := heard_step lawful guarded.blank next sid
  generalize (c.server.store.session sid).msg1 = known at entry heard
  generalize (d.server.store.session sid).msg1 = known' at heard ⊢
  generalize d.verdicts sid = verdicts at heard ⊢
  cases heard with
  | nothing => exact entry
  | refused => exact entry_refused entry
  | authenticated => exact entry_authenticated entry _
  | dispatched => exact entry_dispatched entry

theorem guarded_initial (now : Nat) (remotes : List String) : Guarded (.initial config now remotes) := by
  refine ⟨fun _ _ => rfl, fun sid => ⟨⟨?_, List.Pairwise.nil, nofun⟩, nofun, nofun⟩⟩
  intro before first member
  obtain rfl := List.prefix_nil.mp first
  cases member

/-- Whatever the peers send: in no run is a message dispatched before one has passed `authenticate`,
and a session keeps the one that has. -/
theorem entered_runs (lawful : json.Lawful) (now : Nat) (remotes : List String)
    (events : List ServerEvent) :
    Always (Chronicle.step json config pid)
      (fun c => ∀ sid, Entered (c.server.store.session sid).msg1 (c.verdicts sid))
      (.initial config now remotes) events :=
  (always_of_invariant (guarded_step lawful) (guarded_initial now remotes) events).mono
    fun _ guarded sid => (guarded.entry sid).toEntered

/-- What the runs with final refusals keep. -/
structure Strict (c : Chronicle) : Prop extends Guarded c where
  final : ∀ sid, ((c.server.store.session sid).msg1 ≠ none → .refused ∉ c.verdicts sid) ∧
    Final (c.verdicts sid)

theorem strict_step (lawful : json.Lawful) (strict : Strict c)
    (next : c.step json config pid e = some d) (first : FirstOrNever config c e) : Strict d := by
  refine ⟨guarded_step lawful strict.toGuarded next, ?_⟩
  intro sid
  obtain ⟨unrefused, final⟩ := strict.final sid
  have heard := heard_step lawful strict.blank next sid
  generalize isKnown : (c.server.store.session sid).msg1 = known at heard unrefused
  generalize (d.server.store.session sid).msg1 = known' at heard ⊢
  generalize d.verdicts sid = verdicts at heard ⊢
  cases heard with
  | nothing => exact ⟨unrefused, final⟩
  | refused => exact ⟨fun known => absurd rfl known, final_append final fun other => absurd rfl other⟩
  | authenticated isMsg passed =>
    rw [first isKnown (isMsg ▸ passed)]
    exact ⟨fun _ => by simp, List.pairwise_singleton _ _⟩
  | dispatched =>
    have before := unrefused nofun
    exact ⟨fun _ => by simpa using before, final_append final fun _ => before⟩

/-- A session that is authenticated by a later message has been refused before. -/
theorem late_step (strict : Strict c) (next : c.step json config pid e = some d)
    (late : ¬ FirstOrNever config c e) : ¬ Gate d := by
  cases e with
  | received sid header body =>
    simp only [FirstOrNever, Classical.not_imp] at late
    obtain ⟨unknown, passed, heard⟩ := late
    have isVerdict : d.verdicts sid =
        c.verdicts sid ++ [.authenticated (.incoming config header body (some sid))] := by
      obtain ⟨server, _, rfl⟩ := Option.map_eq_some_iff.mp next
      simp [Server.verdict, Session.authenticated, unknown, passed]
    intro gate
    have final := (gate sid).2
    rw [isVerdict] at final
    obtain ⟨verdict, member⟩ := List.exists_mem_of_ne_nil _ heard
    have refused := (strict.entry sid).waiting unknown verdict member
    cases (List.pairwise_append.mp final).2.2 verdict member _ (List.mem_singleton_self _) refused
  | _ => exact absurd trivial late

/-- The runs in which every session keeps the gate, refusals being final, are exactly those in which no
session is authenticated by a message that is not its first. -/
theorem gate_runs_iff (lawful : json.Lawful) (config : UConfig) (now : Nat) (remotes : List String)
    (events : List ServerEvent) :
    Always (Chronicle.step json config pid) Gate (.initial config now remotes) events ↔
      Meets (Chronicle.step json config pid) (FirstOrNever config) (.initial config now remotes)
        events := by
  apply @always_iff_meets _ _ _ Strict
  · exact fun strict sid => ⟨(strict.entry sid).toEntered, (strict.final sid).2⟩
  · exact strict_step lawful
  · exact late_step
  · exact ⟨guarded_initial now remotes, fun _ => ⟨fun known => absurd rfl known, List.Pairwise.nil⟩⟩

end Runs

/-- The userver of `alpha` authenticates itself with its first message. -/
theorem gate_runs_first_message :
    Always (Chronicle.step Json.compactJson ⟨"beta", "userver"⟩ 1) Gate
      (.initial ⟨"beta", "userver"⟩ 0 [])
      [.accept "10.0.0.7", .received 0 (serviceHeader ⟨"alpha", "userver"⟩ "auth") (.tree .empty)] := by
  apply (gate_runs_iff Json.compactJson_lawful _ 0 [] _).mpr
  rintro c ⟨rfl⟩
  refine ⟨trivial, ?_⟩
  rintro d ⟨rfl⟩
  exact ⟨fun _ _ => rfl, trivial⟩

/-- A peer that is refused, because it gives the name of the server itself, gives another name in its
next message and is authenticated. -/
theorem refused_peer_authenticates :
    ¬ Always (Chronicle.step Json.compactJson ⟨"beta", "userver"⟩ 1) Gate
      (.initial ⟨"beta", "userver"⟩ 0 [])
      [.accept "10.0.0.7", .received 0 (serviceHeader ⟨"beta", "userver"⟩ "auth") (.tree .empty),
        .received 0 (serviceHeader ⟨"alpha", "userver"⟩ "auth") (.tree .empty)] := by
  intro always
  have reached : exec (Chronicle.step Json.compactJson ⟨"beta", "userver"⟩ 1)
      (.initial ⟨"beta", "userver"⟩ 0 [])
      [.accept "10.0.0.7", .received 0 (serviceHeader ⟨"beta", "userver"⟩ "auth") (.tree .empty),
        .received 0 (serviceHeader ⟨"alpha", "userver"⟩ "auth") (.tree .empty)] = some _ := rfl
  have final : Final [.refused, .authenticated _] := (always.last reached 0).2
  cases List.pairwise_pair.mp final rfl

end Uzel.Verified.AuthenticationGate
