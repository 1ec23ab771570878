import Mathlib.Logic.Function.Iterate
import ScriptSense.Workspace
import ScriptSense.Proofs.FirstUse

/-!
Includes as a graph. An edge goes from a script to each file that one of its include paths leads to,
and a file that cannot be read has no edges. The files are discovered breadth first: the order of
discovery is fixed by the graph, and resolving a script's includes reads the files in that order.
The search takes one include path at a time, and it takes each path of the scripts it knows once.
-/
namespace ScriptSense

namespace ScriptIndex

def script? (read : Text → Option Text) (file : Text) : Option Script :=
  (read file).map Script.parse

def targets (index : ScriptIndex) (script : Script) : List Text :=
  script.includes.filterMap index.find?

def onward (index : ScriptIndex) (read : Text → Option Text) (file : Text) : List Text :=
  (script? read file).toList.flatMap index.targets

inductive Reached (index : ScriptIndex) (read : Text → Option Text) (root : Script) :
    Nat → Text → Prop where
  | direct {file : Text} (target : file ∈ index.targets root) : Reached index read root 0 file
  | through {count : Nat} {file next : Text} (before : Reached index read root count file)
      (target : next ∈ index.onward read file) : Reached index read root (count + 1) next

/-- Every file that a script leads to, each once, in the order in which a breadth-first search
discovers them. -/
structure BreadthFirst (index : ScriptIndex) (read : Text → Option Text) (root : Script)
    (order : List Text) : Prop where
  once : (order.map Path.parts).Nodup
  reached : ∀ file, file ∈ order ↔ ∃ count, index.Reached read root count file
  discovered : order = (index.targets root ++ order.flatMap (index.onward read)).eraseDups
  nearest : ∀ near far, [near, far].Sublist order → ∀ count, index.Reached read root count far →
    ∃ fewer ≤ count, index.Reached read root fewer near

theorem endsWith_parts (left right ending : Text) (same : Path.parts left = Path.parts right) :
    Path.endsWith left ending = Path.endsWith right ending := by
  rw [Path.endsWith, Path.endsWith, same]

/-- Of the spellings of one path in the index, only the first is ever found. -/
theorem find?_first (index : ScriptIndex) (path file : Text) (found : index.find? path = some file) :
    index.files.find? (fun other => Path.parts other = Path.parts file) = some file := by
  obtain ⟨ending, front, back, split, earlier⟩ := List.find?_eq_some_iff_append.mp found
  refine List.find?_eq_some_iff_append.mpr ⟨by simp, front, back, split, ?_⟩
  intro other member
  have refused := earlier other member
  have different : Path.parts other ≠ Path.parts file := by
    intro same
    rw [endsWith_parts other file path same, ending] at refused
    contradiction
  simp [different]

theorem find?_parts (index : ScriptIndex) (path other file twin : Text)
    (found : index.find? path = some file) (again : index.find? other = some twin)
    (same : Path.parts file = Path.parts twin) : file = twin := by
  have first := index.find?_first path file found
  rw [same, index.find?_first other twin again] at first
  exact (Option.some.inj first).symm

structure Search where
  pending : List Text
  visited : List (List PathPart)
  found : List Script

namespace Search

def start (root : Script) : Search := ⟨root.includes, [], []⟩

def step (index : ScriptIndex) (read : Text → Option Text) : Search → Search
  | ⟨[], visited, found⟩ => ⟨[], visited, found⟩
  | ⟨path :: pending, visited, found⟩ =>
      match index.find? path with
      | none => ⟨pending, visited, found⟩
      | some file =>
          if visited.contains (Path.parts file) then ⟨pending, visited, found⟩
          else
            match script? read file with
            | none => ⟨pending, Path.parts file :: visited, found⟩
            | some script =>
                ⟨pending ++ script.includes, Path.parts file :: visited, found ++ [script]⟩

section Step

variable (index : ScriptIndex) (read : Text → Option Text)
variable (path : Text) (pending : List Text) (visited : List (List PathPart)) (found : List Script)

/-- A path is dropped if it leads to no file, or to one that the search has met. -/
theorem step_known (known : ∀ file, index.find? path = some file → Path.parts file ∈ visited) :
    step index read ⟨path :: pending, visited, found⟩ = ⟨pending, visited, found⟩ := by
  rw [step]
  cases leads : index.find? path with
  | none => rfl
  | some file => simp only [List.contains_iff_mem, if_pos (known file leads)]

theorem step_fresh (file : Text) (leads : index.find? path = some file)
    (fresh : Path.parts file ∉ visited) :
    step index read ⟨path :: pending, visited, found⟩ =
      ⟨pending ++ (script? read file).toList.flatMap (·.includes), Path.parts file :: visited,
        found ++ (script? read file).toList⟩ := by
  rw [step, leads]
  simp only [List.contains_iff_mem, if_neg fresh]
  cases script? read file with
  | none => simp
  | some script => simp

end Step

end Search

section Follow

variable (index : ScriptIndex) (read : Text → Option Text)

theorem follow_stuck (visited : List (List PathPart)) (pending : List Text)
    (stuck : index.nextFile? visited pending = none) :
    index.follow read visited pending = [] := by
  rw [follow]
  split
  · rfl
  · next found =>
      rw [stuck] at found
      cases found

theorem follow_file (visited : List (List PathPart)) (pending rest : List Text) (file : Text)
    (next : index.nextFile? visited pending = some (file, rest)) :
    index.follow read visited pending =
      (script? read file).toList ++ index.follow read (Path.parts file :: visited)
        (rest ++ (script? read file).toList.flatMap (·.includes)) := by
  rw [follow]
  split
  · next found =>
      rw [next] at found
      cases found
  · next found =>
      rw [next] at found
      cases found
      cases unread : read file with
      | none => simp [script?, unread]
      | some text => simp [script?, unread]

theorem follow_known (path : Text) (visited : List (List PathPart)) (pending : List Text)
    (known : ∀ file, index.find? path = some file → Path.parts file ∈ visited) :
    index.follow read visited (path :: pending) = index.follow read visited pending := by
  have same : index.nextFile? visited (path :: pending) = index.nextFile? visited pending := by
    rw [nextFile?]
    cases leads : index.find? path with
    | none => rfl
    | some file => simp only [if_pos (known file leads)]
  cases next : index.nextFile? visited pending with
  | none => rw [index.follow_stuck read _ _ next, index.follow_stuck read _ _ (same.trans next)]
  | some further =>
      obtain ⟨file, rest⟩ := further
      rw [index.follow_file read _ _ _ _ next, index.follow_file read _ _ _ _ (same.trans next)]

theorem follow_fresh (path file : Text) (visited : List (List PathPart)) (pending : List Text)
    (leads : index.find? path = some file) (fresh : Path.parts file ∉ visited) :
    index.follow read visited (path :: pending) =
      (script? read file).toList ++ index.follow read (Path.parts file :: visited)
        (pending ++ (script? read file).toList.flatMap (·.includes)) := by
  have next : index.nextFile? visited (path :: pending) = some (file, pending) := by
    rw [nextFile?, leads]
    simp only [if_neg fresh]
  exact index.follow_file read visited (path :: pending) pending file next

end Follow

structure Search.Progress (index : ScriptIndex) (read : Text → Option Text) (root : Script)
    (handled order : List Text) (search : Search) : Prop where
  steps : search = (Search.step index read)^[handled.length] (Search.start root)
  paths : handled ++ search.pending = (root :: search.found).flatMap (·.includes)
  met : order = (handled.filterMap index.find?).eraseDups
  scripts : search.found = order.filterMap (script? read)
  visited : search.visited = (order.map Path.parts).reverse
  reached : ∀ file ∈ order, ∃ count, index.Reached read root count file
  outcome : search.found ++ index.follow read search.visited search.pending =
    index.resolve read root

namespace Search.Progress

theorem begin (index : ScriptIndex) (read : Text → Option Text) (root : Script) :
    Progress index read root [] [] (start root) where
  steps := rfl
  paths := by simp [start]
  met := rfl
  scripts := rfl
  visited := rfl
  reached := by simp
  outcome := rfl

variable {index : ScriptIndex} {read : Text → Option Text} {root : Script}
variable {handled order : List Text} {search : Search}

theorem found_by (progress : Progress index read root handled order search) (file : Text)
    (member : file ∈ order) : ∃ path, index.find? path = some file := by
  rw [progress.met, List.mem_eraseDups] at member
  obtain ⟨path, _, found⟩ := List.mem_filterMap.mp member
  exact ⟨path, found⟩

theorem mem_visited (progress : Progress index read root handled order search) (path file : Text)
    (leads : index.find? path = some file) : Path.parts file ∈ search.visited ↔ file ∈ order := by
  rw [progress.visited, List.mem_reverse]
  constructor
  · intro met
    obtain ⟨twin, member, same⟩ := List.mem_map.mp met
    obtain ⟨other, again⟩ := progress.found_by twin member
    rwa [index.find?_parts path other file twin leads again same.symm]
  · exact List.mem_map_of_mem

/-- A pending path comes from the script itself or from one that was read, so it leads to a file
that is reached. -/
theorem reached_next (progress : Progress index read root handled order search) (path file : Text)
    (pending : path ∈ search.pending) (leads : index.find? path = some file) :
    ∃ count, index.Reached read root count file := by
  have listed : path ∈ (root :: search.found).flatMap (·.includes) := by
    rw [← progress.paths]
    exact List.mem_append_right handled pending
  obtain ⟨script, member, included⟩ := List.mem_flatMap.mp listed
  have target : file ∈ index.targets script := List.mem_filterMap.mpr ⟨path, included, leads⟩
  rcases List.mem_cons.mp member with rfl | inFound
  · exact ⟨0, .direct target⟩
  · rw [progress.scripts] at inFound
    obtain ⟨before, met, parsed⟩ := List.mem_filterMap.mp inFound
    obtain ⟨count, reached⟩ := progress.reached before met
    exact ⟨count + 1, .through reached (by simpa [onward, parsed] using target)⟩

theorem next_steps (progress : Progress index read root handled order search) (path : Text) :
    search.step index read =
      (Search.step index read)^[(handled ++ [path]).length] (Search.start root) := by
  rw [List.length_append, List.length_singleton, Function.iterate_succ_apply', ← progress.steps]

section Next

variable {path : Text} {rest : List Text} {visited : List (List PathPart)} {found : List Script}
variable (progress : Progress index read root handled order ⟨path :: rest, visited, found⟩)
include progress

theorem known (met : ∀ file, index.find? path = some file → file ∈ order) :
    Progress index read root (handled ++ [path]) order ⟨rest, visited, found⟩ := by
  have old : ∀ file, index.find? path = some file → Path.parts file ∈ visited := fun file leads =>
    (progress.mem_visited path file leads).mpr (met file leads)
  have steps := progress.next_steps path
  rw [step_known index read path rest visited found old] at steps
  have outcome := progress.outcome
  rw [index.follow_known read path visited rest old] at outcome
  have same : ((handled ++ [path]).filterMap index.find?).eraseDups = order := by
    cases leads : index.find? path with
    | none => simpa [leads] using progress.met.symm
    | some file =>
        have member := met file leads
        rw [progress.met, List.mem_eraseDups] at member
        rw [List.filterMap_append, List.filterMap_cons_some leads, List.filterMap_nil,
          FirstUse.eraseDups_concat, if_pos member, ← progress.met]
  exact {
    progress with
    steps := steps
    paths := by simpa using progress.paths
    met := same.symm
    outcome := outcome
  }

theorem fresh (file : Text) (leads : index.find? path = some file) (unmet : file ∉ order) :
    Progress index read root (handled ++ [path]) (order ++ [file])
      ⟨rest ++ (script? read file).toList.flatMap (·.includes), Path.parts file :: visited,
        found ++ (script? read file).toList⟩ := by
  have unvisited : Path.parts file ∉ visited := fun old =>
    unmet ((progress.mem_visited path file leads).mp old)
  have steps := progress.next_steps path
  rw [step_fresh index read path rest visited found file leads unvisited] at steps
  have outcome := progress.outcome
  rw [index.follow_fresh read path file visited rest leads unvisited, ← List.append_assoc] at outcome
  refine ⟨steps, ?_, ?_, ?_, ?_, ?_, outcome⟩
  · have paths := congrArg (· ++ (script? read file).toList.flatMap (·.includes)) progress.paths
    simpa using paths
  · rw [progress.met, List.mem_eraseDups] at unmet
    rw [List.filterMap_append, List.filterMap_cons_some leads, List.filterMap_nil,
      FirstUse.eraseDups_concat, if_neg unmet, ← progress.met]
  · have one : (script? read file).toList = [file].filterMap (script? read) := by
      rw [List.filterMap_eq_flatMap_toList, List.flatMap_singleton]
    rw [List.filterMap_append, ← progress.scripts, one]
  · have visits := congrArg (Path.parts file :: ·) progress.visited
    simpa using visits
  · intro other member
    rcases List.mem_append.mp member with old | new
    · exact progress.reached other old
    · rw [List.mem_singleton.mp new]
      exact progress.reached_next path file List.mem_cons_self leads

end Next

/-- Each step either meets a file of the index for the first time or leaves one path less. -/
theorem finishes (index : ScriptIndex) (read : Text → Option Text) (root : Script)
    (handled order pending : List Text) (visited : List (List PathPart)) (found : List Script)
    (progress : Progress index read root handled order ⟨pending, visited, found⟩) :
    ∃ handled order visited found,
      Progress index read root handled order ⟨[], visited, found⟩ := by
  match pending, progress with
  | [], progress => exact ⟨handled, order, visited, found, progress⟩
  | path :: rest, progress =>
      by_cases met : ∀ file, index.find? path = some file → file ∈ order
      · exact finishes index read root _ _ _ _ _ (progress.known met)
      · push Not at met
        obtain ⟨file, leads, unmet⟩ := met
        have unvisited : Path.parts file ∉ visited := fun old =>
          unmet ((progress.mem_visited path file leads).mp old)
        have fewer := index.unvisited_length_lt visited file (List.mem_of_find?_eq_some leads) unvisited
        exact finishes index read root _ _ _ _ _ (progress.fresh file leads unmet)
termination_by ((index.unvisited visited).length, pending.length)

theorem discovered {visited : List (List PathPart)} {found : List Script}
    (progress : Progress index read root handled order ⟨[], visited, found⟩) :
    order = (index.targets root ++ order.flatMap (index.onward read)).eraseDups := by
  have paths : handled = (root :: found).flatMap (·.includes) := by
    simpa using progress.paths
  have scripts : found = order.flatMap fun file => (script? read file).toList := by
    rw [← List.filterMap_eq_flatMap_toList]
    exact progress.scripts
  have onward : found.flatMap index.targets = order.flatMap (index.onward read) := by
    rw [scripts, List.flatMap_assoc]
    rfl
  have all : handled.filterMap index.find? = index.targets root ++ found.flatMap index.targets := by
    rw [paths, List.filterMap_flatMap, List.flatMap_cons]
    rfl
  rw [← onward, ← all]
  exact progress.met

theorem once (progress : Progress index read root handled order search) :
    (order.map Path.parts).Nodup := by
  have distinct : order.Nodup := by
    rw [progress.met]
    exact FirstUse.nodup_eraseDups _
  refine List.Nodup.map_on ?_ distinct
  intro file met twin again same
  obtain ⟨path, leads⟩ := progress.found_by file met
  obtain ⟨other, also⟩ := progress.found_by twin again
  exact index.find?_parts path other file twin leads also same

end Search.Progress

section Discovered

variable {index : ScriptIndex} {read : Text → Option Text} {root : Script} {order : List Text}
variable (discovered : order = (index.targets root ++ order.flatMap (index.onward read)).eraseDups)
include discovered

theorem mem_discovered (file : Text) :
    file ∈ order ↔ file ∈ index.targets root ∨ ∃ before ∈ order, file ∈ index.onward read before := by
  conv_lhs => rw [discovered]
  rw [List.mem_eraseDups, List.mem_append, List.mem_flatMap]

theorem mem_of_reached (count : Nat) (file : Text) (reached : index.Reached read root count file) :
    file ∈ order := by
  induction reached with
  | direct target => exact (mem_discovered discovered _).mpr (.inl target)
  | through _ target ih => exact (mem_discovered discovered _).mpr (.inr ⟨_, ih, target⟩)

/-- The files that the script and the front of the order lead to begin the order. -/
theorem front_prefix (front : List Text) (begins : front <+: order) :
    (index.targets root ++ front.flatMap (index.onward read)).eraseDups <+: order := by
  obtain ⟨back, split⟩ := begins
  have first := FirstUse.eraseDups_prefix (index.targets root ++ front.flatMap (index.onward read))
    (back.flatMap (index.onward read))
  rwa [List.append_assoc, ← List.flatMap_append, split, ← discovered] at first

-- What leads to the nearer file was discovered no later than what leads to the farther one, so the
-- induction is on the way to the farther one.
theorem reached_sooner (near far : Text) (before : [near, far].Sublist order) (count : Nat)
    (reached : index.Reached read root count far) :
    ∃ fewer ≤ count, index.Reached read root fewer near := by
  induction reached generalizing near with
  | direct target =>
      rw [discovered] at before
      have first := FirstUse.mem_of_before _ _ _ _ before target
      exact ⟨0, Nat.le_refl 0, .direct first⟩
  | @through count parent far earlier target ih =>
      obtain ⟨front, back, split⟩ :=
        List.append_of_mem (mem_of_reached discovered count parent earlier)
      rw [discovered, split, List.append_cons front parent back, List.flatMap_append,
        ← List.append_assoc] at before
      have led : far ∈ index.targets root ++ (front ++ [parent]).flatMap (index.onward read) :=
        List.mem_append_right _ (List.mem_flatMap.mpr ⟨parent, by simp, target⟩)
      rcases List.mem_append.mp (FirstUse.mem_of_before _ _ _ _ before led) with direct | onward
      · exact ⟨0, Nat.zero_le _, .direct direct⟩
      · obtain ⟨other, member, leads⟩ := List.mem_flatMap.mp onward
        rcases List.mem_append.mp member with inFront | last
        · have sooner : [other, parent].Sublist order := by
            rw [split]
            exact (List.singleton_sublist.mpr inFront).append
              (List.singleton_sublist.mpr List.mem_cons_self)
          obtain ⟨fewer, bound, reached⟩ := ih other sooner
          exact ⟨fewer + 1, Nat.succ_le_succ bound, .through reached leads⟩
        · rw [List.mem_singleton.mp last] at leads
          exact ⟨count + 1, Nat.le_refl _, .through earlier leads⟩

end Discovered

namespace BreadthFirst

variable {index : ScriptIndex} {read : Text → Option Text} {root : Script} {order other : List Text}

-- A front that leads to nothing new would be all that is reached, so it always shows the next file.
theorem next_same (first : index.BreadthFirst read root order)
    (second : index.BreadthFirst read root other) (front : List Text) (next : Text)
    (begins : front ++ [next] <+: order) (shared : front <+: other) : front ++ [next] <+: other := by
  have front_begins : front <+: order := (List.prefix_append front [next]).trans begins
  have here := front_prefix first.discovered front front_begins
  have there := front_prefix second.discovered front shared
  by_cases longer :
      front.length < (index.targets root ++ front.flatMap (index.onward read)).eraseDups.length
  · have within := List.prefix_of_prefix_length_le begins here (by simpa [Nat.succ_le_iff] using longer)
    exact within.trans there
  · have closed := List.prefix_of_prefix_length_le here front_begins (Nat.le_of_not_lt longer)
    have all : ∀ count file, index.Reached read root count file → file ∈ front := by
      intro count file reached
      induction reached with
      | direct target =>
          exact closed.mem (List.mem_eraseDups.mpr (List.mem_append_left _ target))
      | through _ target ih =>
          have led := List.mem_flatMap.mpr ⟨_, ih, target⟩
          exact closed.mem (List.mem_eraseDups.mpr (List.mem_append_right _ led))
    obtain ⟨count, reached⟩ := (first.reached next).mp (begins.mem (by simp))
    have distinct : (front ++ [next]).Nodup :=
      (List.Nodup.of_map Path.parts first.once).sublist begins.sublist
    have apart := (List.nodup_append.mp distinct).2.2 next (all count next reached) next
    exact absurd rfl (apart List.mem_cons_self)

theorem prefix_same (first : index.BreadthFirst read root order)
    (second : index.BreadthFirst read root other) (front : List Text) (begins : front <+: order) :
    front <+: other := by
  induction front using List.reverseRecOn with
  | nil => exact List.nil_prefix
  | append_singleton front next ih =>
      exact first.next_same second front next begins
        (ih ((List.prefix_append front [next]).trans begins))

/-- The graph leaves no choice of the order. -/
theorem unique (first : index.BreadthFirst read root order)
    (second : index.BreadthFirst read root other) : other = order := by
  have left := first.prefix_same second order (List.prefix_refl order)
  have right := second.prefix_same first other (List.prefix_refl other)
  exact right.eq_of_length (Nat.le_antisymm right.length_le left.length_le)

end BreadthFirst

theorem Search.Progress.breadthFirst {index : ScriptIndex} {read : Text → Option Text}
    {root : Script} {handled order : List Text} {visited : List (List PathPart)}
    {found : List Script}
    (progress : Progress index read root handled order ⟨[], visited, found⟩) :
    index.BreadthFirst read root order where
  once := progress.once
  reached file := by
    constructor
    · exact progress.reached file
    · rintro ⟨count, reached⟩
      exact mem_of_reached progress.discovered count file reached
  discovered := progress.discovered
  nearest := reached_sooner progress.discovered

/-- A search with nothing left to follow has found what the script includes. -/
theorem Search.Progress.resolved {index : ScriptIndex} {read : Text → Option Text}
    {root : Script} {handled order : List Text} {visited : List (List PathPart)}
    {found : List Script}
    (progress : Progress index read root handled order ⟨[], visited, found⟩) :
    found = index.resolve read root := by
  have outcome := progress.outcome
  rw [index.follow_stuck read visited [] rfl] at outcome
  simpa using outcome

/-- Whatever the includes say, the search is done once it has taken each include path of the script
and of the scripts it read. What it has read by then is what the script includes: the scripts in the
files that are reached, each file once and in breadth-first order. -/
theorem resolve_breadth_first (index : ScriptIndex) (read : Text → Option Text) (root : Script) :
    ∃ order visited,
      index.BreadthFirst read root order ∧
      (∀ other, index.BreadthFirst read root other → other = order) ∧
      index.resolve read root = order.filterMap (script? read) ∧
      (Search.step index read)^[((root :: index.resolve read root).flatMap (·.includes)).length]
        (Search.start root) = ⟨[], visited, index.resolve read root⟩ := by
  obtain ⟨handled, order, visited, found, progress⟩ :=
    Search.Progress.finishes index read root [] [] root.includes [] [] (.begin index read root)
  have ordered := progress.breadthFirst
  have resolved := progress.resolved
  have paths : handled = (root :: found).flatMap (·.includes) := by
    simpa using progress.paths
  subst resolved
  exact ⟨order, visited, ordered, fun other also => ordered.unique also, progress.scripts,
    paths ▸ progress.steps.symm⟩

end ScriptIndex

end ScriptSense
