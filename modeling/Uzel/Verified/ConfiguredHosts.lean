import Uzel.Remotes
import Uzel.Verified.ResolveRate

/-! # From the configuration to the lookups

`configured_iff` says which hosts a configuration names, in the terms of its text: `remotes` inverts the
grammar of lists that are separated by commas.  `lookups_configured` says what becomes of them in a run
of the server: it looks up no other host and never its own name, and whenever the timer of the manager
expires, every host that has not been looked up before is looked up.
-/

namespace Uzel.Verified.ConfiguredHosts

open Foundation ResolveRate

/-- The configuration has a text for the remotes that names the host. -/
def Configured (config : UConfig) (pt : PTree) (hname : String) : Prop :=
  hname ≠ config.nodeName ∧ ∃ rs, ∃ names : List String, pt.getChild ["remotes", "name"] = some rs ∧
    Separated.Written UConfig.isSpace ',' (names.map String.toList) rs.data.toList ∧ hname ∈ names

/-- `remotes` inverts the grammar. -/
theorem remotes_eq_iff {pt : PTree} {names : List String} :
    UConfig.remotes pt = some names ↔ ∃ rs, pt.getChild ["remotes", "name"] = some rs ∧
      Separated.Written UConfig.isSpace ',' (names.map String.toList) rs.data.toList := by
  have back : ∀ tokens : List (List Char), (tokens.map String.ofList).map String.toList = tokens := by
    intro tokens
    rw [List.map_map]
    apply (List.map_congr_left (g := id) _).trans (List.map_id _)
    exact fun token _ => String.toList_ofList
  have forth : ∀ names : List String, (names.map String.toList).map String.ofList = names := by
    intro names
    rw [List.map_map]
    apply (List.map_congr_left (g := id) _).trans (List.map_id _)
    exact fun name _ => String.ofList_toList
  rw [UConfig.remotes, Option.map_eq_some_iff]
  constructor
  · rintro ⟨rs, found, rfl⟩
    refine ⟨rs, found, ?_⟩
    rw [back]
    exact (Separated.tokens_eq_iff (by decide)).mp rfl
  · rintro ⟨rs, found, written⟩
    refine ⟨rs, found, ?_⟩
    rw [(Separated.tokens_eq_iff (by decide)).mpr written, forth]

/-! ## The hosts of the manager -/

section Hosts

variable {json : JsonCodec} {config : UConfig} {pid now : Nat} {s t : Server}

def hostnames (manager : OutgoingManager) : List String := manager.connectTo.map (·.hostname)

theorem mem_addHosts (config : UConfig) (now : Nat) (hosts : List String) (manager : OutgoingManager)
    (hname : String) :
    hname ∈ hostnames (hosts.foldl (fun manager hname => manager.addHost config now hname) manager) ↔
      hname ∈ hostnames manager ∨ (hname ≠ config.nodeName ∧ hname ∈ hosts) := by
  induction hosts generalizing manager with
  | nil => simp
  | cons first hosts inductionHypothesis =>
    rw [List.foldl_cons, inductionHypothesis]
    have one : hname ∈ hostnames (manager.addHost config now first) ↔
        hname ∈ hostnames manager ∨ (hname ≠ config.nodeName ∧ hname = first) := by
      unfold OutgoingManager.addHost
      split
      next own =>
        have own : first = config.nodeName := by simpa [UConfig.isLocalNode] using own
        constructor
        · exact .inl
        · rintro (before | ⟨other, rfl⟩)
          · exact before
          · exact absurd own other
      next other =>
        have other : first ≠ config.nodeName := by simpa [UConfig.isLocalNode] using other
        split
        next known =>
          obtain ⟨rh, member, same⟩ := List.any_eq_true.mp known
          constructor
          · exact .inl
          · rintro (before | ⟨_, rfl⟩)
            · exact before
            · exact List.mem_map.mpr ⟨rh, member, by simpa using same⟩
        next =>
          have added : ∀ rh : RemoteHostToConnect, hostnames { manager with
              connectTo := manager.connectTo ++ [rh] } = hostnames manager ++ [rh.hostname] := by
            intro rh
            simp [hostnames]
          rw [added, List.mem_append, List.mem_singleton]
          constructor
          · rintro (before | rfl)
            · exact .inl before
            · exact .inr ⟨other, rfl⟩
          · rintro (before | ⟨_, rfl⟩)
            · exact .inl before
            · exact .inr rfl
    rw [one, List.mem_cons]
    tauto

/-- The manager keeps its hosts. -/
theorem hostnames_always (config : UConfig) (now : Nat) (remotes : List String) (es : List ServerEvent) :
    Always (Server.step json config pid) (fun s => (hostnames s.outman).Nodup ∧
      ∀ hname, hname ∈ hostnames s.outman ↔ hname ≠ config.nodeName ∧ hname ∈ remotes)
      (Server.initial config now remotes) es := by
  have kept : ∀ es, Always ManagerState.step
      (fun m => (hostnames m.manager).Nodup ∧ hostnames m.manager =
        hostnames (Server.initial config now remotes).outman)
      (Server.initial config now remotes).managed es := by
    intro es
    have initial := (ledger_initial config now remotes).distinct
    refine @always_of_invariant ManagerState ManagerEvent ManagerState.step _ ?_ _ ⟨initial, rfl⟩ es
    rintro m after e ⟨distinct, same⟩ stepped
    obtain ⟨_, change, marks, isMapped, _⟩ := step_cases stepped distinct
    have names : hostnames after.manager = hostnames m.manager := by
      rw [hostnames, isMapped, List.map_map]
      exact List.map_congr_left fun rh _ => marks.hostname rh
    rw [names]
    exact ⟨distinct, same⟩
  apply (manager_simulates.always rfl kept es).mono
  rintro s ⟨_, rfl, distinct, same⟩
  refine ⟨distinct, ?_⟩
  intro hname
  have member := mem_addHosts config now remotes (.new 32300 2) hname
  have none_ : hname ∉ hostnames (OutgoingManager.new 32300 2) := List.not_mem_nil
  rw [or_iff_right none_] at member
  have same : hostnames s.outman = hostnames (Server.initial config now remotes).outman := same
  rw [same]
  exact member

/-- Every host that is new is looked up when the timer of the manager expires. -/
theorem looksUp_initial (distinct : (hostnames s.outman).Nodup) {i : Nat}
    (expired : s.outman.timer.completions[i]? = some true) (next : s.step json config pid (.onTimer i) = some t)
    {rh : RemoteHostToConnect} (member : rh ∈ s.outman.connectTo) (initial : rh.status = .initial) :
    LooksUp rh.hostname s t := by
  obtain ⟨m, stepped, rfl⟩ := Option.map_eq_some_iff.mp next
  simp only [ManagerState.step, expired, Option.map_some, Option.some.injEq] at stepped
  rw [← stepped]
  generalize isTaken : { s.outman with timer := { s.outman.timer with
    completions := s.outman.timer.completions.eraseIdx i } } = taken
  have hosts : taken.connectTo = s.outman.connectTo := by rw [← isTaken]
  have resolves : taken.resolves = s.outman.resolves := by rw [← isTaken]
  have distinct : (taken.connectTo.map (·.hostname)).Nodup := hosts ▸ distinct
  have isDue : OutgoingManager.due s.store.now rh = true := by simp [OutgoingManager.due, initial]
  have started : rh.hostname ∈ (taken.connectTo.filter (OutgoingManager.due s.store.now)).map (·.hostname) :=
    List.mem_map_of_mem (List.mem_filter.mpr ⟨hosts ▸ member, isDue⟩)
  have more := List.count_pos_iff.mpr started
  have isStarted := congrArg OutgoingManager.resolves (startConnecting_eq distinct s.store.now)
  show s.outman.resolves.count rh.hostname < (taken.startConnecting s.store.now).resolves.count rh.hostname
  rw [isStarted, List.count_append, resolves]
  exact Nat.lt_add_of_pos_right more

/-- In every run, only configured hosts are looked up, and when the timer expires, no configured host
is left that has not been looked up. -/
theorem lookups_configured {pt : PTree} {start : Server} (constructed : Server.construct config pt now = some start)
    {es : List ServerEvent} (run : exec (Server.step json config pid) start es = some s) {e : ServerEvent}
    (next : s.step json config pid e = some t) :
    (∀ hname, LooksUp hname s t → Configured config pt hname) ∧
      ∀ i, e = .onTimer i → s.outman.timer.completions[i]? = some true → ∀ hname, Configured config pt hname →
        LooksUp hname s t ∨ ∃ rh ∈ s.outman.connectTo, rh.hostname = hname ∧ rh.status ≠ .initial := by
  obtain ⟨names, read, rfl⟩ := Option.map_eq_some_iff.mp constructed
  obtain ⟨distinct, hosts⟩ := (hostnames_always config now names es).last run
  have isConfigured : ∀ hname, Configured config pt hname ↔ hname ∈ hostnames s.outman := by
    intro hname
    rw [hosts hname, Configured]
    apply and_congr_right
    intro _
    obtain ⟨rs, found, written⟩ := remotes_eq_iff.mp read
    constructor
    · rintro ⟨rs', names', found', written', member⟩
      have same := remotes_eq_iff.mpr ⟨rs', found', written'⟩
      rw [read, Option.some.injEq] at same
      exact same ▸ member
    · exact fun member => ⟨rs, names, found, written, member⟩
  constructor
  · intro hname looksUp
    obtain ⟨⟨rh, member, name, _⟩, _⟩ := looksUp_cases distinct next looksUp
    exact (isConfigured hname).mpr (List.mem_map.mpr ⟨rh, member, name⟩)
  · rintro i rfl expired hname configured
    obtain ⟨rh, member, rfl⟩ := List.mem_map.mp ((isConfigured hname).mp configured)
    by_cases initial : rh.status = .initial
    · exact .inl (looksUp_initial distinct expired next member initial)
    · exact .inr ⟨rh, member, rfl, initial⟩

/-- A server whose own name is in its configuration. -/
theorem lookups_configured_own :
    ∃ start s t : Server,
      Server.construct ⟨"liver", "userver"⟩ (PTree.empty.put ["remotes", "name"] "pingutv ,liver") 0 = some start ∧
      exec (Server.step Json.compactJson ⟨"liver", "userver"⟩ 1) start [.fire] = some s ∧
      s.step Json.compactJson ⟨"liver", "userver"⟩ 1 (.onTimer 0) = some t ∧ LooksUp "pingutv" s t ∧
      Configured ⟨"liver", "userver"⟩ (PTree.empty.put ["remotes", "name"] "pingutv ,liver") "pingutv" := by
  have text : Separated.Written UConfig.isSpace ',' [['p', 'i', 'n', 'g', 'u', 't', 'v'], ['l', 'i', 'v', 'e', 'r']]
      "pingutv ,liver".toList := by
    have blanks : ∀ a ∈ [' '] ++ [], UConfig.isSpace a = true := by
      intro a member
      rw [List.mem_singleton.mp member]
      decide
    refine @Separated.Written.cons Char UConfig.isSpace ',' ['p', 'i', 'n', 'g', 'u', 't', 'v'] [' '] []
      ['l', 'i', 'v', 'e', 'r'] [['l', 'i', 'v', 'e', 'r']] ⟨by decide, ?_⟩ blanks ⟨'l', rfl, by decide⟩
      (.single (by decide))
    intro a isLast
    cases isLast
    decide
  have read : UConfig.remotes (PTree.empty.put ["remotes", "name"] "pingutv ,liver") =
      some ["pingutv", "liver"] := remotes_eq_iff.mpr ⟨_, rfl, text⟩
  have constructed : Server.construct ⟨"liver", "userver"⟩
      (PTree.empty.put ["remotes", "name"] "pingutv ,liver") 0 =
        some (.initial ⟨"liver", "userver"⟩ 0 ["pingutv", "liver"]) := by
    rw [Server.construct, read, Option.map_some]
  refine ⟨_, _, _, constructed, rfl, rfl, by decide, ?_⟩
  exact (@lookups_configured Json.compactJson ⟨"liver", "userver"⟩ 1 0 _ _ _ _ constructed [.fire] rfl (.onTimer 0)
    rfl).1 "pingutv" (by decide)

end Hosts

end Uzel.Verified.ConfiguredHosts
