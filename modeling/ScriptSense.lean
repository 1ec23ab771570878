import ScriptSense.Session
import ScriptSense.Settings
import ScriptSense.Proofs.BreadthFirst
import ScriptSense.Proofs.Overlay
import ScriptSense.Proofs.Cut
import ScriptSense.Proofs.Chain
import ScriptSense.Proofs.Members
import ScriptSense.Proofs.History
import ScriptSense.Proofs.ParameterLoss
import ScriptSense.Proofs.Opaque
import ScriptSense.Proofs.Inside
import ScriptSense.Proofs.Trivia
import ScriptSense.Proofs.Nesting
import ScriptSense.Proofs.Outline
import ScriptSense.Proofs.Directive
import ScriptSense.Proofs.SelfInclude
import ScriptSense.Proofs.CompletionSite
import ScriptSense.Proofs.Commas
import ScriptSense.Proofs.Rendering
import ScriptSense.Proofs.RenderedList
import ScriptSense.Proofs.ManualLine
import ScriptSense.Proofs.Label
import ScriptSense.Proofs.AttachedList
import ScriptSense.Proofs.BracketOrder
import ScriptSense.Proofs.HeaderLine
import ScriptSense.Proofs.Remark
import ScriptSense.Proofs.Sharing
import ScriptSense.Proofs.Suppression
import ScriptSense.Proofs.CallableName
import ScriptSense.Proofs.RoundTrip
import ScriptSense.Proofs.Placeholder
import ScriptSense.Proofs.NameEnd
import ScriptSense.Proofs.ActiveOverload
import ScriptSense.Proofs.StrippedLiteral
import ScriptSense.Proofs.VisibleName
import ScriptSense.Proofs.NormalForm
import ScriptSense.Proofs.CursorPlace
import ScriptSense.Proofs.LookupName
import ScriptSense.Proofs.Pairing
import ScriptSense.Proofs.Lexing
