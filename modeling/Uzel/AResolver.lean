import Uzel.Server

/-! # Resolving in a thread pool (`aresolver.h`)

`async_resolve` posts a task to an `io_context` of its own, which the threads of the pool run.  A thread
takes the task in front, resolves in the meantime, and then posts the handler to the `io_context` of the
application.  Each of these handlers is on a strand of its own, so they run in any order.

The manager of a server starts a lookup with `async_resolve`, and the handler is `connectResolved`.  A
`PooledServer` is a server with its pool; the state of the server has the host names of the lookups
that it waits for, and the pool knows where they are.
-/

namespace Uzel

open Foundation

/-- The lookups `τ` with the answers `α`. -/
structure AResolver (τ α : Type*) where
  threads : Nat
  /-- the tasks that no thread has taken yet -/
  tasks : List τ
  /-- the tasks of the threads that are in `resolve` -/
  resolving : List τ
  /-- the handlers that have been posted and have not run yet -/
  posted : List (τ × α)
deriving DecidableEq, Repr

inductive ResolverEvent (α : Type*) where
  | take
  | resolve (i : Nat) (answer : α)

namespace AResolver

variable {τ α : Type*}

def new (threads : Nat) : AResolver τ α := ⟨threads, [], [], []⟩

def asyncResolve (task : τ) (pool : AResolver τ α) : AResolver τ α :=
  { pool with tasks := pool.tasks ++ [task] }

/-- `do_async_resolve` begins on a thread that is free, or ends with a post of the handler. -/
def step (pool : AResolver τ α) : ResolverEvent α → Option (AResolver τ α)
  | .take =>
    match pool.tasks with
    | [] => none
    | task :: tasks =>
      if pool.resolving.length < pool.threads then
        some { pool with tasks, resolving := pool.resolving ++ [task] }
      else none
  | .resolve i answer =>
    pool.resolving[i]?.map fun task =>
      { pool with
        resolving := pool.resolving.eraseIdx i
        posted := pool.posted ++ [(task, answer)] }

/-- The handler that runs next, and the rest. -/
def takeHandler (j : Nat) (pool : AResolver τ α) : Option ((τ × α) × AResolver τ α) :=
  pool.posted[j]?.map fun handler => (handler, { pool with posted := pool.posted.eraseIdx j })

/-- Where a lookup can be. -/
def lookups (pool : AResolver τ α) : List τ := pool.tasks ++ pool.resolving ++ pool.posted.map Prod.fst

end AResolver

/-- `ResolverThreads` -/
def resolverThreads : Nat := 5

structure PooledServer where
  server : Server
  pool : AResolver String (Option String)

/-- What happens on the threads of the pool, a posted handler, or another event of the server. -/
inductive PooledEvent where
  | pool (e : ResolverEvent (Option String))
  | handler (j : Nat)
  | other (e : ServerEvent)

namespace PooledServer

def initial (config : UConfig) (now : Nat) (remotes : List String) : PooledServer :=
  ⟨.initial config now remotes, .new resolverThreads⟩

variable (json : JsonCodec) (config : UConfig) (pid : Nat)

/-- The lookups that the manager has started are posted to the pool. -/
def step (s : PooledServer) : PooledEvent → Option PooledServer
  | .pool e => (s.pool.step e).map fun pool => { s with pool }
  | .handler j =>
    (s.pool.takeHandler j).bind fun ((hname, answer), pool) =>
      (s.server.step json config pid (.resolved (s.server.outman.resolves.idxOf hname) answer)).map (⟨·, pool⟩)
  | .other (.resolved _ _) => none
  | .other e =>
    (s.server.step json config pid e).map fun server =>
      let started := server.outman.resolves.drop s.server.outman.resolves.length
      ⟨server, started.foldl (fun pool hname => pool.asyncResolve hname) s.pool⟩

end PooledServer

end Uzel
