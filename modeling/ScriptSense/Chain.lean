import ScriptSense.Layout

/-!
Chains of member access. `a.b().` before a cursor reads as `[a, b()]`. Argument lists are folded
first, so the calls inside them never split a chain, and the text is then read from its end: blanks,
perhaps `()`, blanks, a name, and a `.` before it.
-/
namespace ScriptSense

inductive Segment where
  | access (name : Text)
  | call (name : Text)
  deriving DecidableEq, Repr

namespace Segment

def name : Segment → Text
  | access name | call name => name

def isCall : Segment → Bool
  | access _ => false
  | call _ => true

def render : Segment → Text
  | access name => name
  | call name => name ++ "()".toList

def asCall (segment : Segment) : Segment := call segment.name

/-- A segment needs a name; `::` alone is none. -/
def isNamed (segment : Segment) : Bool := segment.name.any isNameChar

end Segment

namespace Chain

/-- A name read backwards: identifier characters and `::` pairs. A single colon ends it. -/
def takeName : Text → Text × Text
  | [] => ([], [])
  | ':' :: ':' :: rest => (':' :: ':' :: (takeName rest).1, (takeName rest).2)
  | first :: rest =>
      if isNameChar first then (first :: (takeName rest).1, (takeName rest).2)
      else ([], first :: rest)

theorem takeName_length (text : Text) : (takeName text).2.length ≤ text.length := by
  fun_induction takeName text with
  | case1 => simp
  | case2 rest ih => simp only [List.length_cons]; omega
  | case3 first rest _ _ ih => simp only [List.length_cons]; omega
  | case4 => simp

def takeSegment (reversed : Text) : Segment × Text :=
  match reversed.dropWhile isBlank with
  | ')' :: '(' :: rest =>
      let (name, before) := takeName (rest.dropWhile isBlank)
      (.call name.reverse, before)
  | rest =>
      let (name, before) := takeName rest
      (.access name.reverse, before)

theorem dropBlank_length (text : Text) : (text.dropWhile isBlank).length ≤ text.length :=
  (List.dropWhile_suffix isBlank).length_le

theorem takeSegment_length (reversed : Text) :
    (takeSegment reversed).2.length ≤ reversed.length := by
  have trimmed := dropBlank_length reversed
  unfold takeSegment
  split
  · next rest shape =>
      have inner := dropBlank_length rest
      have name := takeName_length (rest.dropWhile isBlank)
      simp only [shape, List.length_cons] at trimmed
      simp only
      omega
  · next rest _ =>
      have name := takeName_length (reversed.dropWhile isBlank)
      simp only
      omega

/-- The segments at the end of a text, the last one first. There is always one; names may be
empty. -/
def segments (reversed : Text) : List Segment :=
  match _stop : (takeSegment reversed).2.dropWhile isBlank with
  | '.' :: before => (takeSegment reversed).1 :: segments before
  | _ => [(takeSegment reversed).1]
termination_by reversed.length
decreasing_by
  have trimmed := dropBlank_length (takeSegment reversed).2
  have taken := takeSegment_length reversed
  simp only [_stop, List.length_cons] at trimmed
  omega

def named? (backwards : List Segment) : Option (List Segment) :=
  if backwards.all Segment.isNamed then some backwards.reverse else none

/-- The completed segments before the word at the end of a sanitized text; none if that word does
not follow a member access. -/
def ofText (text : Text) : List Segment :=
  (named? (segments (foldedText parens text).reverse).tail).getD []

end Chain

structure OpenCall where
  chain : List Segment
  arguments : List Text
  deriving DecidableEq, Repr

namespace OpenCall

def active (call : OpenCall) : Nat := call.arguments.length - 1

def ofText? (text : Text) : Option OpenCall :=
  match fold parens text with
  | ⟨_, []⟩ => none
  | ⟨base, innermost :: outer⟩ =>
      match Chain.segments (Folded.text parens ⟨base, outer⟩).reverse with
      | [] => none
      | last :: earlier =>
          (Chain.named? (last.asCall :: earlier)).map fun chain =>
            ⟨chain, (innermost.reverse.splitOn ',').map Text.trim⟩

end OpenCall

end ScriptSense
