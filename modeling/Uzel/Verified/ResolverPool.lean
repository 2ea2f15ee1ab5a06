import Mathlib.Algebra.Order.Group.Multiset
import Mathlib.Tactic.Abel
import Uzel.AResolver
import Uzel.Verified.ResolveRate

/-! # The pool and the lookups of the server

`Server` answers its outstanding lookups in any order.  `resolver_answers` says that this is what the
pool does: the lookups that the manager waits for are, each as often as it waits for it, those that are
somewhere in the pool, so every handler that the pool posts finds its lookup in the manager and ends it,
none is answered twice, and none is lost.
-/

namespace Uzel.Verified.ResolverPool

open Foundation ResolveRate

section Pool

variable {τ α : Type*} {pool after : AResolver τ α}

theorem lookups_asyncResolve (task : τ) (pool : AResolver τ α) :
    (pool.asyncResolve task).lookups.Perm (pool.lookups ++ [task]) := by
  rw [← Multiset.coe_eq_coe]
  simp only [AResolver.lookups, AResolver.asyncResolve, ← Multiset.coe_add]
  abel

/-- The requests of the manager get into the pool. -/
theorem lookups_foldl (started : List τ) (pool : AResolver τ α) :
    (started.foldl (fun pool task => pool.asyncResolve task) pool).lookups.Perm (pool.lookups ++ started) ∧
      (started.foldl (fun pool task => pool.asyncResolve task) pool).resolving = pool.resolving ∧
      (started.foldl (fun pool task => pool.asyncResolve task) pool).threads = pool.threads := by
  induction started generalizing pool with
  | nil => simp
  | cons task started inductionHypothesis =>
    obtain ⟨lookups, resolving, threads⟩ := inductionHypothesis (pool.asyncResolve task)
    refine ⟨?_, resolving, threads⟩
    have first := (lookups_asyncResolve task pool).append_right started
    rw [List.append_assoc, List.singleton_append] at first
    exact lookups.trans first

theorem perm_eraseIdx {l : List τ} {i : Nat} {a : τ} (found : l[i]? = some a) :
    (a :: l.eraseIdx i).Perm l := by
  obtain ⟨bound, rfl⟩ := List.getElem?_eq_some_iff.mp found
  exact List.getElem_cons_eraseIdx_perm bound

/-- Nothing is lost on the threads, and there are not more of them than the pool has. -/
theorem lookups_step {e : ResolverEvent α} (stepped : pool.step e = some after) :
    after.lookups.Perm pool.lookups ∧ after.threads = pool.threads ∧
      (pool.resolving.length ≤ pool.threads → after.resolving.length ≤ after.threads) := by
  cases e with
  | take =>
    simp only [AResolver.step] at stepped
    split at stepped
    · cases stepped
    next task tasks isTasks =>
      split at stepped
      next free =>
        cases stepped
        refine ⟨?_, rfl, fun _ => by simpa [Nat.add_one_le_iff] using free⟩
        rw [← Multiset.coe_eq_coe]
        have front : ((task :: tasks : List τ) : Multiset τ) = ([task] : List τ) + tasks :=
          Multiset.coe_add [task] tasks
        simp only [AResolver.lookups, isTasks, ← Multiset.coe_add, front]
        abel
      next => cases stepped
  | resolve i answer =>
    obtain ⟨task, found, rfl⟩ := Option.map_eq_some_iff.mp stepped
    refine ⟨?_, rfl, fun bounded => (List.length_eraseIdx_le _ _).trans bounded⟩
    have taken : (pool.resolving : Multiset τ) = ([task] : List τ) + pool.resolving.eraseIdx i :=
      Multiset.coe_eq_coe.mpr (perm_eraseIdx found).symm
    rw [← Multiset.coe_eq_coe]
    simp only [AResolver.lookups, ← Multiset.coe_add, taken, List.map_append, List.map_cons, List.map_nil]
    abel

/-- The handler that runs is the answer to a lookup that is in the pool. -/
theorem lookups_takeHandler {j : Nat} {handler : τ × α} (taken : pool.takeHandler j = some (handler, after)) :
    (handler.1 :: after.lookups).Perm pool.lookups ∧ after.threads = pool.threads ∧
      after.resolving = pool.resolving := by
  obtain ⟨found, posted, isTaken⟩ := Option.map_eq_some_iff.mp taken
  cases isTaken
  refine ⟨?_, rfl, rfl⟩
  have front : (pool.posted.map Prod.fst : Multiset τ) =
      ([handler.1] : List τ) + (pool.posted.eraseIdx j).map Prod.fst :=
    Multiset.coe_eq_coe.mpr ((perm_eraseIdx posted).map Prod.fst).symm
  rw [← List.singleton_append, ← Multiset.coe_eq_coe]
  simp only [AResolver.lookups, ← Multiset.coe_add, front]
  abel

end Pool

section Server

variable {json : JsonCodec} {config : UConfig} {pid : Nat} {s t : PooledServer}

/-- The lookups that the manager waits for are those in the pool. -/
structure Sound (s : PooledServer) : Prop where
  distinct : (s.server.outman.connectTo.map (·.hostname)).Nodup
  lookups : s.server.outman.resolves.Perm s.pool.lookups
  threads : s.pool.threads = resolverThreads
  bounded : s.pool.resolving.length ≤ s.pool.threads

theorem sound_other (sound : Sound s) {e : ServerEvent} (next : s.step json config pid (.other e) = some t) :
    Sound t ∧ s.server.step json config pid e = some t.server := by
  have started : ∀ server, (∀ i answer, e ≠ .resolved i answer) →
      s.server.step json config pid e = some server →
      Sound ⟨server, (server.outman.resolves.drop s.server.outman.resolves.length).foldl
        (fun pool hname => pool.asyncResolve hname) s.pool⟩ := by
    intro server other stepped
    obtain ⟨started, more⟩ := resolves_step sound.distinct stepped other
    obtain ⟨lookups, resolving, threads⟩ := lookups_foldl started s.pool
    rw [more, List.drop_left]
    refine ⟨distinct_server_step sound.distinct stepped, ?_, threads.trans sound.threads, ?_⟩
    · show server.outman.resolves.Perm _
      rw [more]
      exact (sound.lookups.append_right started).trans lookups.symm
    · rw [resolving, threads]
      exact sound.bounded
  cases e with
  | resolved i answer => cases next
  | tick | accept | fire | onTimer | pokeTask | connectHandler | received | readAgain | readFailed | written =>
    simp only [PooledServer.step] at next
    obtain ⟨server, stepped, rfl⟩ := Option.map_eq_some_iff.mp next
    exact ⟨started server (fun _ _ same => by cases same) stepped, stepped⟩

theorem sound_pool (sound : Sound s) {e : ResolverEvent (Option String)}
    (next : s.step json config pid (.pool e) = some t) : Sound t ∧ t.server = s.server := by
  obtain ⟨pool, stepped, rfl⟩ := Option.map_eq_some_iff.mp next
  obtain ⟨lookups, threads, bounded⟩ := lookups_step stepped
  exact ⟨⟨sound.distinct, sound.lookups.trans lookups.symm, threads.trans sound.threads,
    bounded sound.bounded⟩, rfl⟩

/-- A posted handler finds its lookup in the manager, and ends it. -/
theorem sound_handler (json : JsonCodec) (config : UConfig) (pid : Nat) (sound : Sound s) {j : Nat}
    {task : String × Option String} {pool : AResolver String (Option String)}
    (taken : s.pool.takeHandler j = some (task, pool)) :
    ∃ server, s.server.step json config pid
        (.resolved (s.server.outman.resolves.idxOf task.1) task.2) = some server ∧
      s.step json config pid (.handler j) = some ⟨server, pool⟩ ∧ Sound ⟨server, pool⟩ := by
  obtain ⟨lookups, threads, resolving⟩ := lookups_takeHandler taken
  have waited : task.1 ∈ s.server.outman.resolves :=
    sound.lookups.mem_iff.mpr (lookups.mem_iff.mp List.mem_cons_self)
  have found : s.server.outman.resolves[s.server.outman.resolves.idxOf task.1]? = some task.1 :=
    List.getElem?_idxOf waited
  obtain ⟨server, stepped⟩ : ∃ server, s.server.step json config pid
      (.resolved (s.server.outman.resolves.idxOf task.1) task.2) = some server := by
    simp only [Server.step, found]
    exact ⟨_, rfl⟩
  refine ⟨server, stepped, ?_, distinct_server_step sound.distinct stepped, ?_, threads.trans sound.threads, ?_⟩
  · simp only [PooledServer.step, taken, Option.bind_some, stepped]
    rfl
  · show server.outman.resolves.Perm _
    obtain ⟨-, fewer⟩ := resolves_answer sound.distinct stepped
    rw [fewer]
    exact List.Perm.cons_inv ((perm_eraseIdx found).trans (sound.lookups.trans lookups.symm))
  · rw [resolving, threads]
    exact sound.bounded

/-- What the pool has left to do: a task has to be taken, resolved and handled. -/
def work (pool : AResolver String (Option String)) : Nat :=
  3 * pool.tasks.length + 2 * pool.resolving.length + pool.posted.length

theorem work_step {pool after : AResolver String (Option String)} {e : ResolverEvent (Option String)}
    (stepped : pool.step e = some after) : work after < work pool := by
  cases e with
  | take =>
    simp only [AResolver.step] at stepped
    split at stepped
    · cases stepped
    next task tasks isTasks =>
      split at stepped
      next =>
        cases stepped
        simp only [work, isTasks, List.length_cons, List.length_append, List.length_nil]
        omega
      next => cases stepped
  | resolve i answer =>
    obtain ⟨task, found, rfl⟩ := Option.map_eq_some_iff.mp stepped
    have fewer := (perm_eraseIdx found).length_eq
    simp only [work, List.length_cons, List.length_append, List.length_nil] at fewer ⊢
    omega

theorem work_takeHandler {pool after : AResolver String (Option String)} {j : Nat} {handler : String × Option String}
    (taken : pool.takeHandler j = some (handler, after)) : work after < work pool := by
  obtain ⟨found, posted, isTaken⟩ := Option.map_eq_some_iff.mp taken
  cases isTaken
  have fewer := (perm_eraseIdx posted).length_eq
  simp only [work, List.length_cons] at fewer ⊢
  omega

/-- The events that the pool makes of the lookups it has. -/
def OfPool (e : PooledEvent) : Prop := ∀ other, e ≠ .other other

theorem sound_ofPool (sound : Sound s) {e : PooledEvent} (ofPool : OfPool e)
    (next : s.step json config pid e = some t) : Sound t ∧ work t.pool < work s.pool := by
  cases e with
  | pool e =>
    refine ⟨(sound_pool sound next).1, ?_⟩
    obtain ⟨pool, stepped, rfl⟩ := Option.map_eq_some_iff.mp next
    exact work_step stepped
  | handler j =>
    obtain ⟨⟨task, pool⟩, taken, _⟩ := Option.bind_eq_some_iff.mp next
    obtain ⟨server, _, run, sound⟩ := sound_handler json config pid sound taken
    cases run.symm.trans next
    exact ⟨sound, work_takeHandler taken⟩
  | other e => exact absurd rfl (ofPool e)

/-- The pool comes to rest only when it has nothing left. -/
theorem lookups_rest (sound : Sound s) (rest : ∀ e, OfPool e → s.step json config pid e = none) :
    s.pool.lookups = [] := by
  have posted : s.pool.posted = [] := by
    cases isPosted : s.pool.posted with
    | nil => rfl
    | cons task posted =>
      have taken : s.pool.takeHandler 0 = some (task, { s.pool with posted }) := by
        simp [AResolver.takeHandler, isPosted]
      obtain ⟨server, _, run, _⟩ := sound_handler json config pid sound taken
      have none_ := rest (.handler 0) (fun _ same => by cases same)
      cases run.symm.trans none_
  have resolving : s.pool.resolving = [] := by
    cases isResolving : s.pool.resolving with
    | nil => rfl
    | cons task resolving =>
      have none_ := rest (.pool (.resolve 0 none)) (fun _ same => by cases same)
      simp [PooledServer.step, AResolver.step, isResolving] at none_
  have tasks : s.pool.tasks = [] := by
    cases isTasks : s.pool.tasks with
    | nil => rfl
    | cons task tasks =>
      -- all threads are free now
      have none_ := rest (.pool .take) (fun _ same => by cases same)
      simp [PooledServer.step, AResolver.step, isTasks, resolving, sound.threads, resolverThreads] at none_
  simp [AResolver.lookups, tasks, resolving, posted]

theorem resolves_initial (config : UConfig) (now : Nat) (remotes : List String) :
    (Server.initial config now remotes).outman.resolves = [] :=
  @OutgoingManager.addHosts_rule (fun manager => manager.resolves = []) config now
    (fun _ _ none_ _ => none_) (.new 32300 2) rfl remotes

theorem sound_initial (config : UConfig) (now : Nat) (remotes : List String) :
    Sound (PooledServer.initial config now remotes) where
  distinct := (ledger_initial config now remotes).distinct
  lookups := by
    rw [show (PooledServer.initial config now remotes).server.outman.resolves = [] from
      resolves_initial config now remotes]
    exact List.Perm.refl []
  threads := rfl
  bounded := Nat.zero_le _

/-- The pool is a resolver for the server. -/
structure Answers (json : JsonCodec) (config : UConfig) (pid : Nat) (s : PooledServer) : Prop where
  lookups : s.server.outman.resolves.Perm s.pool.lookups
  threads : s.pool.resolving.length ≤ resolverThreads
  handled : ∀ j < s.pool.posted.length, ∃ t, s.step json config pid (.handler j) = some t
  answered : ∀ es t, (∀ e ∈ es, OfPool e) → exec (PooledServer.step json config pid) s es = some t →
    es.length ≤ 3 * s.server.outman.resolves.length ∧
      ((∀ e, OfPool e → t.step json config pid e = none) → t.server.outman.resolves = [])

theorem Sound.answers (sound : Sound s) : Answers json config pid s where
  lookups := sound.lookups
  threads := sound.bounded.trans sound.threads.le
  handled := by
    intro j bound
    have taken : s.pool.takeHandler j =
        some (s.pool.posted[j], { s.pool with posted := s.pool.posted.eraseIdx j }) := by
      simp [AResolver.takeHandler, bound]
    obtain ⟨server, _, run, _⟩ := sound_handler json config pid sound taken
    exact ⟨_, run⟩
  answered := by
    intro es t only executed
    obtain ⟨sound', fewer⟩ := length_le_rank (fun s : PooledServer => work s.pool)
      (fun sound ofPool next => sound_ofPool sound ofPool next) sound only executed
    constructor
    · have all := sound.lookups.length_eq
      simp only [AResolver.lookups, List.length_append, List.length_map] at all
      simp only [work] at fewer
      omega
    · intro rest
      have none_ := lookups_rest sound' rest
      exact List.Perm.eq_nil (none_ ▸ sound'.lookups)

/-- What is done by the server with its pool is done by the server. -/
theorem pooled_simulates : Simulates (PooledServer.step json config pid) (Server.step json config pid)
    fun s server => s.server = server ∧ Sound s := by
  rintro s t server e ⟨rfl, sound⟩ next
  cases e with
  | pool e =>
    obtain ⟨sound', same⟩ := sound_pool sound next
    exact ⟨[], _, rfl, same, sound'⟩
  | handler j =>
    obtain ⟨⟨task, pool⟩, taken, _⟩ := Option.bind_eq_some_iff.mp next
    obtain ⟨server, stepped, run, sound'⟩ := sound_handler json config pid sound taken
    cases run.symm.trans next
    exact ⟨[_], server, exec_cons.mpr ⟨server, stepped, rfl⟩, rfl, sound'⟩
  | other e =>
    obtain ⟨sound', stepped⟩ := sound_other sound next
    exact ⟨[e], _, exec_cons.mpr ⟨_, stepped, rfl⟩, rfl, sound'⟩

/-- A run of the server with its pool is a run of the server, and in every state of it the lookups that
the manager waits for are those in the pool, at most five are being resolved, and every order in which
the pool goes on ends them all, each with three events at most. -/
theorem resolver_answers (json : JsonCodec) (config : UConfig) (pid now : Nat) (remotes : List String)
    (es : List PooledEvent) :
    Always (PooledServer.step json config pid)
      (fun s => (∃ ds, exec (Server.step json config pid) (Server.initial config now remotes) ds = some s.server) ∧
        Answers json config pid s)
      (PooledServer.initial config now remotes) es := by
  apply always_of_exec
  intro first s _ executed
  obtain ⟨ds, server, reached, rfl, sound⟩ :=
    pooled_simulates.exec ⟨rfl, sound_initial config now remotes⟩ executed
  exact ⟨⟨ds, reached⟩, sound.answers⟩

end Server

end Uzel.Verified.ResolverPool
