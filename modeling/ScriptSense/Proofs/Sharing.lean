import ScriptSense.Proofs.ManualFolder
import ScriptSense.Session

/-!
Loading into knowledge that is shared. A load publishes all that the manual documents or changes
nothing, in the background as well, and no event changes what an earlier snapshot answers from.
-/
namespace ScriptSense

namespace Shared

inductive Handled (shared after : Shared) : Prop where
  | kept (memory : after.memory = shared.memory) (current : after.current = shared.current)
      (snapshots : after.snapshots = shared.snapshots)
  | published (knowledge : Knowledge) (memory : after.memory = shared.memory ++ [knowledge])
      (current : after.current = some shared.memory.length) (snapshots : after.snapshots = shared.snapshots)
  | cleared (memory : after.memory = shared.memory) (current : after.current = none)
      (snapshots : after.snapshots = shared.snapshots)
  | taken (memory : after.memory = shared.memory) (current : after.current = shared.current)
      (snapshots : after.snapshots = shared.snapshots ++ [shared.current])

theorem handled_conclude (result : Except LoadError Knowledge) (shared : Shared) :
    shared.Handled (shared.conclude result).2 := by
  cases result with
  | error problem => exact .kept rfl rfl rfl
  | ok knowledge => exact .published knowledge rfl rfl rfl

theorem handled_work (host : Nat) (action : Action) (shared : Shared) :
    shared.Handled (shared.work host action) := by
  rw [work]
  split
  · exact .kept rfl rfl rfl
  · exact .kept rfl rfl rfl

theorem handled_act (host : Nat) (action : Action) (shared : Shared) :
    shared.Handled (shared.act host action) := by
  cases action with
  | load folder => exact handled_conclude _ shared
  | publish knowledge => exact .published knowledge rfl rfl rfl
  | unpublish => exact .cleared rfl rfl rfl
  | hold => exact .taken rfl rfl rfl
  | _ => exact handled_work host _ shared

theorem handled_advance (job : Nat) (shared : Shared) : shared.Handled (shared.advance job) := by
  rw [advance]
  split
  · exact .kept rfl rfl rfl
  · next result _ =>
      cases result with
      | error problem => exact .kept rfl rfl rfl
      | ok knowledge => exact .published knowledge rfl rfl rfl
  · exact .kept rfl rfl rfl

theorem handled_step (shared : Shared) (event : Event) : shared.Handled (shared.step event) := by
  cases event with
  | act host action => exact handled_act host action shared
  | attach => exact .kept rfl rfl rfl
  | spawn folder => exact .kept rfl rfl rfl
  | advance job => exact handled_advance job shared

def Sound (shared : Shared) : Prop :=
  ∀ address, shared.current = some address ∨ some address ∈ shared.snapshots →
    address < shared.memory.length

theorem Handled.sound {shared after : Shared} (handled : shared.Handled after) (sound : shared.Sound) :
    after.Sound := by
  intro address inUse
  cases handled with
  | kept memory current snapshots =>
      rw [current, snapshots] at inUse
      exact memory ▸ sound address inUse
  | published knowledge memory current snapshots =>
      rw [current, snapshots] at inUse
      rw [memory, List.length_append, List.length_singleton]
      rcases inUse with new | taken
      · cases new
        exact Nat.lt_succ_self _
      · exact Nat.lt_succ_of_lt (sound address (.inr taken))
  | cleared memory current snapshots =>
      rw [current, snapshots] at inUse
      exact memory ▸ sound address (.inr (inUse.resolve_left nofun))
  | taken memory current snapshots =>
      rw [current, snapshots, List.mem_append, List.mem_singleton] at inUse
      rw [memory]
      rcases inUse with here | earlier | now
      · exact sound address (.inl here)
      · exact sound address (.inr earlier)
      · exact sound address (.inl now.symm)

structure Continues (shared after : Shared) : Prop where
  memory : shared.memory <+: after.memory
  snapshots : shared.snapshots <+: after.snapshots

theorem Handled.continues {shared after : Shared} (handled : shared.Handled after) :
    shared.Continues after := by
  cases handled with
  | kept memory _ snapshots =>
      exact ⟨memory.symm ▸ List.prefix_refl _, snapshots.symm ▸ List.prefix_refl _⟩
  | published knowledge memory _ snapshots =>
      exact ⟨⟨[knowledge], memory.symm⟩, snapshots.symm ▸ List.prefix_refl _⟩
  | cleared memory _ snapshots =>
      exact ⟨memory.symm ▸ List.prefix_refl _, snapshots.symm ▸ List.prefix_refl _⟩
  | taken memory _ snapshots =>
      exact ⟨memory.symm ▸ List.prefix_refl _, ⟨[shared.current], snapshots.symm⟩⟩

theorem run_sound (shared : Shared) (events : List Event) (sound : shared.Sound) :
    (shared.run events).Sound := by
  induction events generalizing shared with
  | nil => exact sound
  | cons event later ih => exact ih (shared.step event) ((handled_step shared event).sound sound)

theorem run_continues (shared : Shared) (events : List Event) : shared.Continues (shared.run events) := by
  induction events generalizing shared with
  | nil => exact ⟨List.prefix_refl _, List.prefix_refl _⟩
  | cons event later ih =>
      have first := (handled_step shared event).continues
      have rest := ih (shared.step event)
      exact ⟨first.memory.trans rest.memory, first.snapshots.trans rest.snapshots⟩

theorem start_sound (disk : FileTree) : (start disk).Sound := by
  rintro address (current | taken)
  · cases current
  · cases taken

theorem published_publish (knowledge : Knowledge) (shared : Shared) :
    (shared.publish knowledge).published = some knowledge := by
  simp [published, publish, knowledgeAt]

theorem knowledgeAt_continues {shared after : Shared} (sound : shared.Sound)
    (continued : shared.Continues after) (address : Option Nat)
    (inUse : shared.current = address ∨ address ∈ shared.snapshots) :
    after.knowledgeAt address = shared.knowledgeAt address := by
  cases address with
  | none => rfl
  | some address =>
      have inMemory := sound address inUse
      rw [knowledgeAt, knowledgeAt, Option.bind_some, Option.bind_some,
        List.prefix_iff_getElem?.mp continued.memory address inMemory]
      exact (List.getElem?_eq_getElem inMemory).symm

/-- A snapshot answers from the same knowledge whatever happens later. -/
theorem snapshot_kept {shared : Shared} (sound : shared.Sound) (later : List Event) (index : Nat)
    (address : Option Nat) (taken : shared.snapshots[index]? = some address) :
    (shared.run later).snapshots[index]? = some address ∧
      (shared.run later).knowledgeAt address = shared.knowledgeAt address := by
  have continued := run_continues shared later
  obtain ⟨inList, here⟩ := List.getElem?_eq_some_iff.mp taken
  refine ⟨?_, knowledgeAt_continues sound continued address (.inr (List.mem_of_getElem? taken))⟩
  rw [List.prefix_iff_getElem?.mp continued.snapshots index inList, here]

theorem held_publish {shared : Shared} (sound : shared.Sound) (knowledge : Knowledge) :
    (shared.publish knowledge).held = shared.held := by
  have handled : shared.Handled (shared.publish knowledge) := .published knowledge rfl rfl rfl
  rw [held, held, publish]
  cases last : shared.snapshots.getLast? with
  | none => rfl
  | some address =>
      exact knowledgeAt_continues sound handled.continues address (.inr (List.mem_of_getLast? last))

theorem session?_publish {shared : Shared} (sound : shared.Sound) (host : Nat) (knowledge : Knowledge) :
    (shared.publish knowledge).session? host =
      (shared.session? host).map (·.perform (.publish knowledge)) := by
  rw [session?, session?, held_publish sound, published_publish, Option.map_map]
  rfl

theorem session?_work (shared : Shared) (host : Nat) (action : Action)
    (apart : ∀ published held workspace,
      (Session.mk shared.disk published held workspace).perform action =
        let after := (Session.mk shared.disk none none workspace).perform action
        ⟨after.disk, published, held, after.workspace⟩) :
    (shared.work host action).session? host = (shared.session? host).map (·.perform action) := by
  rw [work]
  cases found : shared.hosts[host]? with
  | none => simp [session?, found]
  | some workspace =>
      have inHosts : host < shared.hosts.length := (List.getElem?_eq_some_iff.mp found).1
      rw [session?, session?, List.getElem?_set_self inHosts, found, Option.map_some, Option.map_some,
        Option.map_some, apart shared.published shared.held workspace]
      rfl

/-- A host and the last snapshot see what a session sees, and act on it as a session does. -/
theorem session?_act {shared : Shared} (sound : shared.Sound) (host : Nat) (action : Action) :
    (shared.act host action).session? host = (shared.session? host).map (·.perform action) := by
  cases action with
  | load folder =>
      rw [act, load]
      cases loaded : Manual.load shared.disk folder with
      | error problem =>
          have performed (published held : Option Knowledge) (workspace : Workspace) :
              (Session.mk shared.disk published held workspace).perform (.load folder) =
                ⟨shared.disk, published, held, workspace⟩ := by
            rw [Session.perform, Session.load, loaded]
          rw [session?, session?, Option.map_map]
          exact Option.map_congr fun workspace _ => (performed _ _ workspace).symm
      | ok knowledge =>
          have performed (published held : Option Knowledge) (workspace : Workspace) :
              (Session.mk shared.disk published held workspace).perform (.load folder) =
                (Session.mk shared.disk published held workspace).perform (.publish knowledge) := by
            rw [Session.perform, Session.load, loaded]
            rfl
          refine (session?_publish sound host knowledge).trans ?_
          rw [session?, Option.map_map, Option.map_map]
          exact Option.map_congr fun workspace _ => (performed _ _ workspace).symm
  | publish knowledge => exact session?_publish sound host knowledge
  | unpublish =>
      rw [session?, session?, Option.map_map]
      rfl
  | hold =>
      rw [act, session?, session?, Option.map_map, held, List.getLast?_concat]
      rfl
  | _ => exact session?_work shared host _ fun _ _ _ => rfl

end Shared

def Event.Calm (job : Nat) : Event → Prop
  | .act _ (.write _ _) | .act _ (.delete _) => False
  | .advance other => other ≠ job
  | _ => True

namespace Shared

structure Waits (job : Nat) (shared after : Shared) : Prop where
  disk : after.disk = shared.disk
  job : after.jobs[job]? = shared.jobs[job]?
  jobs : shared.jobs.length ≤ after.jobs.length

theorem waits_kept (job : Nat) (shared after : Shared) (disk : after.disk = shared.disk)
    (jobs : after.jobs = shared.jobs) : shared.Waits job after :=
  ⟨disk, by rw [jobs], Nat.le_of_eq (congrArg List.length jobs).symm⟩

theorem waits_set (job other : Nat) (shared after : Shared) (done : Job) (apart : other ≠ job)
    (disk : after.disk = shared.disk) (jobs : after.jobs = shared.jobs.set other done) :
    shared.Waits job after :=
  ⟨disk, by rw [jobs, List.getElem?_set_ne apart], by rw [jobs, List.length_set]⟩

theorem conclude_disk (result : Except LoadError Knowledge) (shared : Shared) :
    (shared.conclude result).2.disk = shared.disk := by
  cases result with
  | error problem => rfl
  | ok knowledge => rfl

theorem conclude_jobs (result : Except LoadError Knowledge) (shared : Shared) :
    (shared.conclude result).2.jobs = shared.jobs := by
  cases result with
  | error problem => rfl
  | ok knowledge => rfl

theorem waits_work (job host : Nat) (action : Action) (shared : Shared)
    (files : ∀ workspace,
      ((Session.mk shared.disk none none workspace).perform action).disk = shared.disk) :
    shared.Waits job (shared.work host action) := by
  rw [work]
  split
  · exact waits_kept job shared _ rfl rfl
  · exact waits_kept job shared _ (files _) rfl

theorem waits_act (job host : Nat) (action : Action) (shared : Shared)
    (calm : (Event.act host action).Calm job) : shared.Waits job (shared.act host action) := by
  cases action with
  | write path node => exact calm.elim
  | delete path => exact calm.elim
  | load folder => exact waits_kept job shared _ (conclude_disk _ shared) (conclude_jobs _ shared)
  | publish knowledge => exact waits_kept job shared _ rfl rfl
  | unpublish => exact waits_kept job shared _ rfl rfl
  | hold => exact waits_kept job shared _ rfl rfl
  | _ => exact waits_work job host _ shared fun _ => rfl

theorem waits_advance (job other : Nat) (shared : Shared) (apart : other ≠ job) :
    shared.Waits job (shared.advance other) := by
  rw [advance]
  split
  · exact waits_set job other shared _ _ apart rfl rfl
  · exact waits_set job other shared _ _ apart (conclude_disk _ shared) rfl
  · exact waits_kept job shared _ rfl rfl

theorem waits_step (job : Nat) (shared : Shared) (event : Event) (calm : event.Calm job)
    (inJobs : job < shared.jobs.length) : shared.Waits job (shared.step event) := by
  cases event with
  | act host action => exact waits_act job host action shared calm
  | attach => exact waits_kept job shared _ rfl rfl
  | spawn folder => exact ⟨rfl, List.getElem?_append_left inJobs, by simp [step]⟩
  | advance other => exact waits_advance job other shared calm

theorem waits_run (job : Nat) (shared : Shared) (events : List Event)
    (calm : ∀ event ∈ events, event.Calm job) (inJobs : job < shared.jobs.length) :
    shared.Waits job (shared.run events) := by
  induction events generalizing shared with
  | nil => exact ⟨rfl, rfl, Nat.le_refl _⟩
  | cons event later ih =>
      obtain ⟨first, others⟩ := List.forall_mem_cons.mp calm
      have here := waits_step job shared event first inJobs
      have rest := ih (shared.step event) others (Nat.lt_of_lt_of_le inJobs here.jobs)
      exact ⟨rest.disk.trans here.disk, rest.job.trans here.job, here.jobs.trans rest.jobs⟩

theorem run_append (shared : Shared) (first later : List Event) :
    shared.run (first ++ later) = (shared.run first).run later := List.foldl_append

/-- A load in the background that was spawned and has read the manual holds what it read. -/
theorem spawned_read (shared : Shared) (folder : Text) (before between : List Event)
    (calm : ∀ event ∈ before ++ between, event.Calm shared.jobs.length) :
    let waiting := shared.run (.spawn folder :: before ++ .advance shared.jobs.length :: between)
    waiting.disk = shared.disk ∧
      waiting.jobs[shared.jobs.length]? = some (.read (Manual.load shared.disk folder)) := by
  obtain ⟨calmBefore, calmBetween⟩ := List.forall_mem_append.mp calm
  set job := shared.jobs.length
  let spawned := shared.step (.spawn folder)
  have inJobs : job < spawned.jobs.length := by simp [spawned, step, job]
  have here : spawned.jobs[job]? = some (.started folder) := by simp [spawned, step, job]
  have first := waits_run job spawned before calmBefore inJobs
  set reached := spawned.run before
  have started : reached.jobs[job]? = some (.started folder) := first.job.trans here
  have onDisk : reached.disk = shared.disk := first.disk
  let read := reached.advance job
  have shape : read =
      { reached with jobs := reached.jobs.set job (.read (Manual.load shared.disk folder)) } := by
    rw [← onDisk]
    simp only [read, advance, started]
  have inReached : job < reached.jobs.length := Nat.lt_of_lt_of_le inJobs first.jobs
  have inRead : job < read.jobs.length := by rw [shape]; simpa using inReached
  have second := waits_run job read between calmBetween inRead
  have split : shared.run (.spawn folder :: before ++ .advance job :: between) = read.run between := by
    rw [run_append]
    rfl
  dsimp only
  rw [split]
  refine ⟨second.disk.trans (by rw [shape]; exact onDisk), second.job.trans ?_⟩
  rw [shape]
  exact List.getElem?_set_self inReached

theorem advance_read (job : Nat) (shared : Shared) (result : Except LoadError Knowledge)
    (read : shared.jobs[job]? = some (.read result)) :
    shared.advance job = { (shared.conclude result).2 with
      jobs := shared.jobs.set job (.joined (shared.conclude result).1) } := by
  simp only [advance, read]

/-- Loading is all or nothing, also in the background, and depends on the files alone; snapshots are
not touched by it or by anything else. -/
structure LoadsWhole (shared : Shared) (folder : Text) (base : Location) : Prop where
  fails : ∀ problem, (shared.load folder).1 = .error problem ↔
    Manual.Blocked shared.disk base ∧ problem = .notFolder (Path.join folder "Objects".toList)
  nothing : Manual.Blocked shared.disk base → (shared.load folder).2 = shared
  all : ¬Manual.Blocked shared.disk base → ∃ knowledge, Manual.Loaded shared.disk base knowledge ∧
    (shared.load folder).2 = shared.publish knowledge ∧ (shared.load folder).2.published = some knowledge
  anyOrder : ∀ other : FileTree, (∀ location, shared.disk.node? location = other.node? location) →
    Manual.load other folder = Manual.load shared.disk folder
  background : ∀ before between : List Event,
    (∀ event ∈ before ++ between, event.Calm shared.jobs.length) →
    let waiting := shared.run (.spawn folder :: before ++ .advance shared.jobs.length :: between)
    let joined := waiting.advance shared.jobs.length
    joined.jobs[shared.jobs.length]? = some (.joined (shared.load folder).1) ∧
      (Manual.Blocked shared.disk base → joined = { waiting with jobs := joined.jobs }) ∧
      (¬Manual.Blocked shared.disk base → ∃ knowledge, Manual.Loaded shared.disk base knowledge ∧
        joined = { waiting.publish knowledge with jobs := joined.jobs })
  snapshots : ∀ (later : List Event) (index : Nat) (address : Option Nat),
    shared.snapshots[index]? = some address →
    (shared.run later).snapshots[index]? = some address ∧
      (shared.run later).knowledgeAt address = shared.knowledgeAt address

/-- Whatever happened before, a manual is loaded as a whole or not at all. -/
theorem loads_whole (disk : FileTree) (events : List Event) (folder : Text) (base : Location)
    (holds : ((start disk).run events).disk.Holds folder base) :
    ((start disk).run events).LoadsWhole folder base := by
  have sound := run_sound (start disk) events (start_sound disk)
  set shared := (start disk).run events
  refine ⟨?_, ?_, ?_, ?_, ?_, ?_⟩
  · intro problem
    rw [← Manual.load_error holds, load]
    cases Manual.load shared.disk folder with
    | error other => simp [conclude]
    | ok knowledge => simp [conclude]
  · intro blocked
    rw [load, Manual.load_blocked holds blocked]
    rfl
  · intro free
    refine ⟨_, Manual.loaded_knowledgeOf shared.disk base, ?_⟩
    rw [load, Manual.load_open holds free]
    exact ⟨rfl, published_publish _ _⟩
  · intro other same
    exact (Manual.load_same shared.disk other same folder base holds).symm
  · intro before between calm waiting joined
    have read := (spawned_read shared folder before between calm).2
    have inJobs : shared.jobs.length < waiting.jobs.length := (List.getElem?_eq_some_iff.mp read).1
    have shape : joined = _ := advance_read _ waiting _ read
    have outcome (result : Except LoadError Knowledge) :
        (waiting.conclude result).1 = (shared.conclude result).1 := by
      cases result <;> rfl
    refine ⟨?_, ?_, ?_⟩
    · rw [shape, load, outcome]
      exact List.getElem?_set_self inJobs
    · intro blocked
      rw [shape, Manual.load_blocked holds blocked]
      rfl
    · intro free
      refine ⟨_, Manual.loaded_knowledgeOf shared.disk base, ?_⟩
      rw [shape, Manual.load_open holds free]
      rfl
  · exact fun later index address taken => snapshot_kept sound later index address taken

-- A file stands where the objects should be: both hosts keep what was published before.
theorem loads_whole_blocked :
    let disk : FileTree :=
      ⟨[(["interface".toList], .folder), (["interface".toList, "Objects".toList], .binary)]⟩
    let events : List Event := [.attach, .attach, .act 0 (.publish Knowledge.empty), .act 1 .hold]
    let shared := (start disk).run events
    shared.disk.Holds "interface".toList ["interface".toList] ∧
      shared.load "interface".toList = (.error (.notFolder "interface/Objects".toList), shared) ∧
      shared.published = some Knowledge.empty := by
  intro disk events shared
  have holds : shared.disk.Holds "interface".toList ["interface".toList] :=
    ⟨by decide +kernel, by decide +kernel⟩
  have blocked : Manual.Blocked shared.disk ["interface".toList] := ⟨.binary, by decide +kernel, nofun⟩
  have whole := loads_whole disk events "interface".toList ["interface".toList] holds
  refine ⟨holds, Prod.ext ?_ (whole.nothing blocked), by decide +kernel⟩
  exact (whole.fails _).mpr ⟨blocked, by decide +kernel⟩

end Shared

end ScriptSense
