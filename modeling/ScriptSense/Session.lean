import ScriptSense.Manual
import ScriptSense.Workspace

/-!
Runs of the whole system, by one host and by several that share what is published.
-/
namespace ScriptSense

/-! ### One host

A session has files on disk, the knowledge that is published to all requests, one copy of it held by
a reader, and a workspace. Publishing replaces the knowledge as a whole, so what was held stays as it
was; a load that fails publishes nothing.
-/

structure Session where
  disk : FileTree
  published : Option Knowledge
  held : Option Knowledge
  workspace : Workspace
  deriving DecidableEq, Repr

inductive Action where
  | write (path : Text) (node : FileNode)
  | delete (path : Text)
  | load (folder : Text)
  | publish (knowledge : Knowledge)
  | unpublish
  | hold
  | restart
  | setIndex (index : ScriptIndex)
  | index (folder : Text)
  | setText (path text : Text)
  | close (path : Text)
  | markStale
  | rebuild
  | refresh
  deriving DecidableEq, Repr

namespace Session

def start (disk : FileTree) : Session := ⟨disk, none, none, Workspace.empty⟩

def load (folder : Text) (session : Session) : Session :=
  match Manual.load session.disk folder with
  | .ok knowledge => { session with published := some knowledge }
  | .error _ => session

def perform (session : Session) : Action → Session
  | .write path node => { session with disk := session.disk.write path node }
  | .delete path => { session with disk := session.disk.delete path }
  | .load folder => session.load folder
  | .publish knowledge => { session with published := some knowledge }
  | .unpublish => { session with published := none }
  | .hold => { session with held := session.published }
  | .restart => { session with workspace := Workspace.empty }
  | .setIndex index => { session with workspace := session.workspace.setIndex index }
  | .index folder =>
      { session with
        workspace := session.workspace.setIndex (ScriptIndex.ofFolder session.disk folder) }
  | .setText path text => { session with workspace := session.workspace.setText path text }
  | .close path => { session with workspace := session.workspace.close path }
  | .markStale => { session with workspace := session.workspace.markStale }
  | .rebuild => { session with workspace := session.workspace.rebuild session.disk.read? }
  | .refresh => { session with workspace := session.workspace.refresh session.disk.read? }

def performAll (session : Session) (actions : List Action) : Session :=
  actions.foldl perform session

end Session

/-! ### Several hosts

What was published once stays in memory as it is; publishing again adds to the memory and leads the
hosts to what is new. A snapshot keeps the address it was taken with. A load in the background reads
the manual in one step and publishes it in a later one, and anything may happen between them.
-/

inductive Job where
  | started (folder : Text)
  | read (result : Except LoadError Knowledge)
  | joined (outcome : Except LoadError Unit)

structure Shared where
  disk : FileTree
  memory : List Knowledge
  current : Option Nat
  hosts : List Workspace
  snapshots : List (Option Nat)
  jobs : List Job

inductive Event where
  | act (host : Nat) (action : Action)
  | attach
  | spawn (folder : Text)
  | advance (job : Nat)

namespace Shared

def start (disk : FileTree) : Shared := ⟨disk, [], none, [], [], []⟩

def knowledgeAt (address : Option Nat) (shared : Shared) : Option Knowledge :=
  address.bind fun address => shared.memory[address]?

def published (shared : Shared) : Option Knowledge := shared.knowledgeAt shared.current

def publish (knowledge : Knowledge) (shared : Shared) : Shared :=
  { shared with memory := shared.memory ++ [knowledge], current := some shared.memory.length }

def conclude (result : Except LoadError Knowledge) (shared : Shared) : Except LoadError Unit × Shared :=
  match result with
  | .ok knowledge => (.ok (), shared.publish knowledge)
  | .error problem => (.error problem, shared)

def load (folder : Text) (shared : Shared) : Except LoadError Unit × Shared :=
  shared.conclude (Manual.load shared.disk folder)

def advance (job : Nat) (shared : Shared) : Shared :=
  match shared.jobs[job]? with
  | some (.started folder) =>
      { shared with jobs := shared.jobs.set job (.read (Manual.load shared.disk folder)) }
  | some (.read result) =>
      let (outcome, after) := shared.conclude result
      { after with jobs := shared.jobs.set job (.joined outcome) }
  | _ => shared

/-- What a host does to the files and to its own scripts. -/
def work (host : Nat) (action : Action) (shared : Shared) : Shared :=
  match shared.hosts[host]? with
  | none => shared
  | some workspace =>
      let after := (Session.mk shared.disk none none workspace).perform action
      { shared with disk := after.disk, hosts := shared.hosts.set host after.workspace }

def act (host : Nat) (action : Action) (shared : Shared) : Shared :=
  match action with
  | .load folder => (shared.load folder).2
  | .publish knowledge => shared.publish knowledge
  | .unpublish => { shared with current := none }
  | .hold => { shared with snapshots := shared.snapshots ++ [shared.current] }
  | action => shared.work host action

def step (shared : Shared) : Event → Shared
  | .act host action => shared.act host action
  | .attach => { shared with hosts := shared.hosts ++ [Workspace.empty] }
  | .spawn folder => { shared with jobs := shared.jobs ++ [.started folder] }
  | .advance job => shared.advance job

def run (shared : Shared) (events : List Event) : Shared := events.foldl step shared

def held (shared : Shared) : Option Knowledge :=
  shared.snapshots.getLast?.bind fun address => shared.knowledgeAt address

/-- A host together with the last snapshot is a session. -/
def session? (host : Nat) (shared : Shared) : Option Session :=
  shared.hosts[host]?.map fun workspace => ⟨shared.disk, shared.published, shared.held, workspace⟩

end Shared

end ScriptSense
