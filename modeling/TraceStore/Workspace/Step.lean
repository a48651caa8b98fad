import TraceStore.Workspace.Basic

/-!
# Steps and answers

A step is one thing to do in a workspace: an operation on nodes, on files, or on one of the parts.
Steps name nodes as the workspace holds them.  An answer says what came of a step, with nodes as
they were at that moment.
-/

namespace TraceStore

/-- What a new node is linked to. -/
inductive NewLinks where
  | ids (ids : List String)
  | names (names : List String)
  deriving Repr, DecidableEq, Inhabited

/-- Steps on executions and on nodes. -/
inductive NodeStep where
  | startExecution (name : String)
  | dropExecution
  | create (name : String) (id : String) (links : NewLinks) (actions : List Action)
  | attach (node : String) (actions : List Action)
  | inspect (node : String)
  | drop (node : String)
  | display (node : String)
  /-- Writes a record without keeping it, with given actions or the node's own. -/
  | encode (node : String) (actions : Option (List Action))
  /-- Tells a failure. -/
  | tell (failure : StoreError)
  deriving Repr

/-- Steps on files. -/
inductive FileStep where
  | write (path : String) (content : List UInt8)
  | read (path : String)
  | remove (path : String)
  | makeDirectories (path : String)
  | list
  | replace (path : String) (content : List UInt8) (atomic : Bool)
  deriving Repr

/-- Steps on the registry. -/
inductive RegistryStep where
  | record (node : String) (id : Option String)
  | size
  | idOf (node : String)
  | nodeAt (position : Nat)
  | resolve (id : String) (links : NewLinks) (name : Option String)
  | decode (document : List UInt8) (name : Option String)
  deriving Repr

/-- Steps on the buffer. -/
inductive DeferredStep where
  | defer (node : String)
  | replace (node : String)
  | get (id : String)
  | contains (id : String)
  | exempt (id : String)
  | release (id : String)
  | remove (id : String) (name : Option String)
  | clear
  | pending
  deriving Repr

/-- How a load ends. -/
inductive LoadEnd where
  | fails (failure : StoreError)
  | gives (node : String)
  | makes (id : String) (parentIds : List String)
  deriving Repr

/-- Steps on the cache.  A load first runs steps on the cache itself. -/
inductive CacheStep where
  | insert (node : String)
  | peek (id : String) (name : Option String)
  | reclaim
  | size
  | get (id : String) (inner : List CacheStep) (ending : LoadEnd) (name : Option String)
  /-- Several callers ask for one node at once. -/
  | getShared (id : String) (newId : String) (parentIds : List String) (callers : Nat)
  /-- Something that cannot be done, for a given reason. -/
  | refuse (reason : String)
  deriving Repr

/-- Steps on the repository. -/
inductive RepositoryStep where
  | place
  | path (id : String)
  | holds (id : String)
  | write (node : String) (actions : List Action)
  | read (id : String) (name : Option String) (display : Bool)
  deriving Repr

/-- Steps on the store. -/
inductive StoreStep where
  | reopen (capacity : Option Nat) (direct : Bool)
  | put (node : String) (later : Bool)
  | get (id : String) (name : Option String)
  | getShared (id : String) (callers : Nat)
  | autopersist (node : String)
  | flushNode (node : String)
  | flush
  | save (node : String) (actions : List Action)
  | load (node : String)
  | isPersisted
  | exempt (id : String)
  | path (id : String)
  | directory
  | reclaim
  | peek (id : String) (name : Option String)
  deriving Repr

/-- One thing to do in a workspace. -/
inductive Step where
  | onNode (step : NodeStep)
  | onFile (step : FileStep)
  | onRegistry (step : RegistryStep)
  | onDeferred (step : DeferredStep)
  | onCache (step : CacheStep)
  | onRepository (step : RepositoryStep)
  | onStore (step : StoreStep)
  deriving Repr

/-- Why a step fails. -/
inductive StepFailure where
  /-- The step cannot be done at all. -/
  | refused (reason : String)
  | store (failure : StoreError)
  | record (text : String)
  | file (fault : FileFault)
  deriving Repr, DecidableEq

/-- What came of a step. -/
inductive Answer where
  | done
  | flag (value : Bool)
  | count (value : Nat)
  /-- The size of a collection. -/
  | size (value : Nat)
  | text (value : String)
  | textOrNone (value : Option String)
  | texts (values : List String)
  | bytes (content : List UInt8)
  | node (view : Option View)
  | nodes (views : List View)
  | actions (actions : List Action)
  | displays (node links : String)
  | told (message : String) (notFound : Bool)
  | place (directory : String) (atomic : Bool)
  | decoded (node : Option View) (actions : List Action) (recorded : Nat)
  | undecoded (message : String) (recorded : Nat)
  | unresolved (failure : StoreError) (node : View)
  | loaded (node : View) (actions : List Action) (display : Option String)
  /-- A node from the cache: whether its load was run, what the steps of the load answered, each
  with the cache after it, and how it ended. -/
  | fetched (called : Bool) (inner : List (Answer × Cache)) (result : Except StoreError View)
  /-- A node that several callers asked for, whether all got the same one, and how often it was
  loaded where that is known. -/
  | shared (node : Option View) (same : Bool) (loads : Option Nat)
  | failed (failure : StepFailure)

end TraceStore
