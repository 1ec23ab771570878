import ScriptSense.Session

/-!
What a session answers, computed from its history alone. Includes are resolved again only if they
are out of date, so an answer can rest on files as they were at an earlier step. The history tells
which step that is, and nothing that puts includes out of date came after it.
-/
namespace ScriptSense

namespace Workspace

theorem find?_without (path other : Text) (workspace : Workspace) :
    ((workspace.without other).find? fun entry => entry.1 = Path.parts path) =
      if Path.parts other = Path.parts path then none
      else workspace.scripts.find? fun entry => entry.1 = Path.parts path := by
  rw [without, List.find?_filter]
  by_cases same : Path.parts other = Path.parts path
  · simp [same]
  · rw [if_neg same]
    congr 1
    funext entry
    by_cases here : entry.1 = Path.parts path
    · simp [here, Ne.symm same]
    · simp [here]

theorem script?_setText (path other text : Text) (workspace : Workspace) :
    (workspace.setText other text).script? path =
      if Path.parts other = Path.parts path then some (OpenScript.ofText text)
      else workspace.script? path := by
  simp only [script?, setText, List.find?_append, find?_without]
  by_cases same : Path.parts other = Path.parts path
  · simp [same]
  · simp [same]

theorem script?_close (path other : Text) (workspace : Workspace) :
    (workspace.close other).script? path =
      if Path.parts other = Path.parts path then none else workspace.script? path := by
  simp only [script?, close, find?_without]
  split
  · rfl
  · rfl

theorem script?_rebuild (read : Text → Option Text) (path : Text) (workspace : Workspace) :
    (workspace.rebuild read).script? path = (workspace.script? path).map fun opened =>
      { opened with included := workspace.includesOf read opened.script } := by
  simp only [script?, rebuild, List.find?_map, Option.map_map]
  rfl

end Workspace

def Action.outdates : Action → Bool
  | .setText _ _ | .setIndex _ | .index _ | .markStale => true
  | _ => false

def Action.settles : Action → Bool
  | .rebuild | .refresh | .restart => true
  | _ => false

/-! Histories list the latest action first. -/
namespace History

def files (start : FileTree) : List Action → FileTree
  | [] => start
  | .write path node :: earlier => (files start earlier).write path node
  | .delete path :: earlier => (files start earlier).delete path
  | _ :: earlier => files start earlier

/-- The knowledge published last. A load that fails publishes nothing. -/
def published? (start : FileTree) : List Action → Option Knowledge
  | [] => none
  | .publish knowledge :: _ => some knowledge
  | .unpublish :: _ => none
  | .load folder :: earlier =>
      match Manual.load (files start earlier) folder with
      | .ok knowledge => some knowledge
      | .error _ => published? start earlier
  | _ :: earlier => published? start earlier

def index? (start : FileTree) : List Action → Option ScriptIndex
  | [] => none
  | .restart :: _ => none
  | .setIndex index :: _ => some index
  | .index folder :: earlier => some (ScriptIndex.ofFolder (files start earlier) folder)
  | _ :: earlier => index? start earlier

def text? (path : Text) : List Action → Option Text
  | [] => none
  | .restart :: _ => none
  | .setText other text :: earlier =>
      if Path.parts other = Path.parts path then some text else text? path earlier
  | .close other :: earlier =>
      if Path.parts other = Path.parts path then none else text? path earlier
  | _ :: earlier => text? path earlier

def outdated (history : List Action) : Bool :=
  (history.takeWhile fun action => !action.settles).any Action.outdates

@[simp]
theorem outdated_nil : outdated [] = false := rfl

@[simp]
theorem outdated_cons (action : Action) (earlier : List Action) :
    outdated (action :: earlier) = (!action.settles && (action.outdates || outdated earlier)) := by
  cases settles : action.settles with
  | true => simp [outdated, settles]
  | false => simp [outdated, settles]

/-- What had happened when includes were last resolved. -/
def lastRebuild? : List Action → Option (List Action)
  | [] => none
  | .restart :: _ => none
  | .rebuild :: earlier => some earlier
  | .refresh :: earlier => if outdated earlier then some earlier else lastRebuild? earlier
  | _ :: earlier => lastRebuild? earlier

def included (start : FileTree) (history seen : List Action) (script : Script) : List Script :=
  match index? start history with
  | some index => index.resolve (files start seen).read? script
  | none => []

def alone (start : FileTree) (history seen : List Action) (text : Text) : OpenScript :=
  ⟨text, Script.parse text, included start history seen (Script.parse text)⟩

theorem settles_cases (action : Action) (settles : action.settles = true) :
    action = .rebuild ∨ action = .refresh ∨ action = .restart := by
  cases action with
  | rebuild => exact .inl rfl
  | refresh => exact .inr (.inl rfl)
  | restart => exact .inr (.inr rfl)
  | _ => cases settles

theorem lastRebuild?_unsettled (action : Action) (earlier : List Action)
    (unsettled : action.settles = false) : lastRebuild? (action :: earlier) = lastRebuild? earlier := by
  cases action with
  | rebuild => cases unsettled
  | refresh => cases unsettled
  | restart => cases unsettled
  | _ => rfl

/-- Nothing has put includes out of date since they were last resolved. -/
theorem lastRebuild?_recent (history seen : List Action) (current : outdated history = false)
    (rebuilt : lastRebuild? history = some seen) :
    ∃ later, history = later ++ seen ∧ ∀ action ∈ later, action.outdates = false := by
  induction history with
  | nil => cases rebuilt
  | cons action earlier ih =>
      have step (kept : action.outdates = false) (calm : outdated earlier = false)
          (before : lastRebuild? earlier = some seen) :
          ∃ later, action :: earlier = later ++ seen ∧ ∀ action ∈ later, action.outdates = false := by
        obtain ⟨later, rfl, quiet⟩ := ih calm before
        exact ⟨action :: later, rfl, List.forall_mem_cons.mpr ⟨kept, quiet⟩⟩
      cases settles : action.settles with
      | false =>
          rw [lastRebuild?_unsettled action earlier settles] at rebuilt
          rw [outdated_cons, settles, Bool.not_false, Bool.true_and, Bool.or_eq_false_iff] at current
          exact step current.1 current.2 rebuilt
      | true =>
          obtain rfl | rfl | rfl := settles_cases action settles
          · cases rebuilt
            exact ⟨[.rebuild], rfl, by simp [Action.outdates]⟩
          · by_cases stale : outdated earlier = true
            · rw [lastRebuild?, if_pos stale] at rebuilt
              cases rebuilt
              exact ⟨[.refresh], rfl, by simp [Action.outdates]⟩
            · rw [lastRebuild?, if_neg stale] at rebuilt
              exact step rfl (by simpa using stale) rebuilt
          · cases rebuilt

end History

structure Session.Follows (start : FileTree) (history : List Action) (session : Session) : Prop where
  disk : session.disk = History.files start history
  published : session.published = History.published? start history
  index : session.workspace.index = History.index? start history
  stale : session.workspace.stale = History.outdated history
  text : ∀ path, (session.workspace.script? path).map (·.text) = History.text? path history
  script : ∀ path opened, session.workspace.script? path = some opened →
    opened.script = Script.parse opened.text
  included : ∀ path opened, History.outdated history = false →
    session.workspace.script? path = some opened →
    ∃ seen, History.lastRebuild? history = some seen ∧
      opened.included = History.included start history seen opened.script

namespace Session.Follows

theorem begin (start : FileTree) : (Session.start start).Follows start [] where
  disk := rfl
  published := rfl
  index := rfl
  stale := rfl
  text _ := rfl
  script _ _ opened := by cases opened
  included _ _ _ opened := by cases opened

variable {start : FileTree} {earlier : List Action} {session : Session}
variable (follows : session.Follows start earlier)
include follows

theorem load (folder : Text) :
    (session.load folder).Follows start (.load folder :: earlier) := by
  have published : History.published? start (.load folder :: earlier) =
      match Manual.load session.disk folder with
      | .ok knowledge => some knowledge
      | .error _ => History.published? start earlier := by
    rw [follows.disk]
    rfl
  rw [Session.load]
  cases loaded : Manual.load session.disk folder with
  | ok knowledge => exact { follows with published := by rw [published, loaded] }
  | error problem => exact { follows with published := by rw [published, loaded, follows.published] }

theorem setText (path text : Text) :
    (session.perform (.setText path text)).Follows start (.setText path text :: earlier) := by
  refine { follows with stale := rfl, text := ?_, script := ?_, included := ?_ }
  · intro other
    simp only [perform, Workspace.script?_setText, History.text?, ← follows.text]
    split
    · rfl
    · rfl
  · intro other opened found
    simp only [perform, Workspace.script?_setText] at found
    split at found
    · cases found
      rfl
    · exact follows.script other opened found
  · intro other opened current
    simp [Action.settles, Action.outdates] at current

theorem close (path : Text) :
    (session.perform (.close path)).Follows start (.close path :: earlier) := by
  refine { follows with text := ?_, script := ?_, included := ?_ }
  · intro other
    simp only [perform, Workspace.script?_close, History.text?, ← follows.text]
    split
    · rfl
    · rfl
  · intro other opened found
    simp only [perform, Workspace.script?_close] at found
    split at found
    · cases found
    · exact follows.script other opened found
  · intro other opened current found
    simp only [perform, Workspace.script?_close] at found
    split at found
    · cases found
    · exact follows.included other opened current found

theorem rebuild : (session.perform .rebuild).Follows start (.rebuild :: earlier) := by
  have found (path : Text) := Workspace.script?_rebuild session.disk.read? path session.workspace
  refine { follows with stale := rfl, text := ?_, script := ?_, included := ?_ }
  · intro path
    rw [perform, found, Option.map_map]
    exact follows.text path
  · intro path opened present
    rw [perform, found, Option.map_eq_some_iff] at present
    obtain ⟨before, here, rfl⟩ := present
    exact follows.script path before here
  · intro path opened _ present
    rw [perform, found, Option.map_eq_some_iff] at present
    obtain ⟨before, here, rfl⟩ := present
    refine ⟨earlier, rfl, ?_⟩
    simp only [Workspace.includesOf, follows.index, follows.disk]
    rfl

/-- Answers find includes settled: they are resolved again if they are out of date, and stay as they
are if not. -/
theorem refresh : (session.perform .refresh).Follows start (.refresh :: earlier) := by
  cases outdated : History.outdated earlier with
  | true =>
      have rebuilt : session.perform .refresh = session.perform .rebuild := by
        simp only [perform, Workspace.refresh, follows.stale, outdated, if_true]
      have last : History.lastRebuild? (.refresh :: earlier) = some earlier := if_pos outdated
      rw [rebuilt]
      exact { follows.rebuild with included := last ▸ follows.rebuild.included }
  | false =>
      have kept : session.perform .refresh = session := by
        simp [perform, Workspace.refresh, follows.stale, outdated]
      have last : History.lastRebuild? (.refresh :: earlier) = History.lastRebuild? earlier :=
        if_neg (by simp [outdated])
      rw [kept]
      refine { follows with stale := follows.stale.trans outdated, included := ?_ }
      intro path opened _ found
      rw [last]
      exact follows.included path opened outdated found

theorem perform (action : Action) :
    (session.perform action).Follows start (action :: earlier) := by
  cases action with
  | write path node => exact { follows with disk := congrArg (·.write path node) follows.disk }
  | delete path => exact { follows with disk := congrArg (·.delete path) follows.disk }
  | load folder => exact follows.load folder
  | publish knowledge => exact { follows with published := rfl }
  | unpublish => exact { follows with published := rfl }
  | hold => exact { follows with }
  | restart => exact { begin start with disk := follows.disk, published := follows.published }
  | setIndex index => exact { follows with index := rfl, stale := rfl, included := nofun }
  | index folder =>
      have index := congrArg (fun disk => some (ScriptIndex.ofFolder disk folder)) follows.disk
      exact { follows with index := index, stale := rfl, included := nofun }
  | setText path text => exact follows.setText path text
  | close path => exact follows.close path
  | markStale => exact { follows with stale := rfl, included := nofun }
  | rebuild => exact follows.rebuild
  | refresh => exact follows.refresh

omit follows

theorem performAll (start : FileTree) (history : List Action) :
    ((Session.start start).performAll history.reverse).Follows start history := by
  induction history with
  | nil => exact begin start
  | cons action earlier ih =>
      rw [Session.performAll, List.reverse_cons, List.foldl_append]
      exact ih.perform action

end Session.Follows

namespace Session

/-- All answers about one script are those that the script and the knowledge give by themselves. -/
structure Answers (path : Text) (documented : Option Knowledge) (alone : Option OpenScript)
    (session : Session) : Prop where
  script : session.workspace.script? path = alone
  nothing : documented = none ∨ alone = none → ∀ cursor,
    session.workspace.completions session.published path cursor = [] ∧
      session.workspace.help? session.published path cursor = none
  something : ∀ knowledge opened, documented = some knowledge → alone = some opened → ∀ cursor,
    session.workspace.completions session.published path cursor =
        opened.completions knowledge cursor ∧
      session.workspace.help? session.published path cursor = opened.help? knowledge cursor

theorem answers (path : Text) (session : Session) :
    session.Answers path session.published (session.workspace.script? path) where
  script := rfl
  nothing := by
    intro missing cursor
    obtain unpublished | closed := missing
    · simp [Workspace.completions, Workspace.help?, unpublished]
    · simp [Workspace.completions, Workspace.help?, closed]
  something := by
    intro knowledge opened documented found cursor
    simp [Workspace.completions, Workspace.help?, documented, found]

/-- Whatever was done before, an answer about a script rests on the text it was given last, on the
knowledge published last, and on includes found with the last index in the files as the last rebuild
read them. That rebuild came after everything that puts includes out of date. -/
theorem answers_from_history (start : FileTree) (history : List Action) (path : Text) :
    let session := ((Session.start start).performAll history.reverse).perform .refresh
    (History.text? path history = none →
      session.Answers path (History.published? start history) none) ∧
    ∀ text, History.text? path history = some text →
      ∃ later seen, .refresh :: history = later ++ seen ∧
        History.lastRebuild? (.refresh :: history) = some seen ∧
        (∀ action ∈ later, action.outdates = false) ∧
        session.Answers path (History.published? start history)
          (some (History.alone start history seen text)) := by
  intro session
  have follows : session.Follows start (.refresh :: history) :=
    (Follows.performAll start history).refresh
  have published : session.published = History.published? start history := follows.published
  have given : (session.workspace.script? path).map (·.text) = History.text? path history :=
    follows.text path
  constructor
  · intro closed
    have absent : session.workspace.script? path = none := by
      rw [closed] at given
      exact Option.map_eq_none_iff.mp given
    rw [← published, ← absent]
    exact session.answers path
  · intro text opened_with
    rw [opened_with] at given
    obtain ⟨opened, found, rfl⟩ := Option.map_eq_some_iff.mp given
    have current : History.outdated (.refresh :: history) = false := by simp [Action.settles]
    obtain ⟨seen, rebuilt, included⟩ := follows.included path opened current found
    obtain ⟨later, split, quiet⟩ := History.lastRebuild?_recent _ seen current rebuilt
    have parsed : opened.script = Script.parse opened.text := follows.script path opened found
    have alone : opened = History.alone start history seen opened.text := by
      rw [History.alone, ← parsed]
      exact congrArg (OpenScript.mk opened.text opened.script) included
    refine ⟨later, seen, split, rebuilt, quiet, ?_⟩
    rw [← published, ← alone, ← found]
    exact session.answers path

-- The included file changes after the last rebuild and another script is closed: neither shows.
theorem answers_from_history_earlier_file :
    let main : Text := "main.as".toList
    let text : Text := "#include \"a.as\"".toList
    let start : FileTree := FileTree.empty.write "Base/a.as".toList (.text "int old;".toList)
    let asked : List Action :=
      [.refresh, .setText main text, .index "Base".toList, .setText "other.as".toList text,
        .publish Knowledge.empty]
    let history : List Action :=
      [.close "other.as".toList, .write "Base/a.as".toList (.text "int new;".toList)] ++ asked
    let session := ((Session.start start).performAll history.reverse).perform .refresh
    session.Answers main (some Knowledge.empty)
      (some ⟨text, Script.parse text, [Script.parse "int old;".toList]⟩) := by
  intro main text start asked history session
  have given : History.text? main history = some text := by decide +kernel
  have published : History.published? start history = some Knowledge.empty := by decide +kernel
  have last : History.lastRebuild? (.refresh :: history) = some asked.tail := by decide +kernel
  have alone : History.alone start history asked.tail text =
      ⟨text, Script.parse text, [Script.parse "int old;".toList]⟩ := by decide +kernel
  obtain ⟨later, seen, _, rebuilt, _, answers⟩ :=
    (answers_from_history start history main).2 text given
  have same : asked.tail = seen := Option.some.inj (last.symm.trans rebuilt)
  rw [published, ← same, alone] at answers
  exact answers

end Session

end ScriptSense
