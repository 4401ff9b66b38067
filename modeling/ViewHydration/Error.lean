import ViewHydration.Dom.Node
import ViewHydration.Handle
import ViewHydration.Template.Kind

/-!
# Errors

Every failure ends the render pass that hit it and travels to the entry point that started the
pass. Errors are grouped by cause:

* `StructuralError`: the instruction stream broke a pairing, ordering or node-kind contract;
* `HydrationError`: the server markup does not match what the instructions expect;
* `I18nError`: a message or its metadata cannot be parsed;
* a node claimed twice, and a configuration that cannot be read.

Each error has a kind, such as `Structural.SlotOutOfRange`, and a message. The messages name
handles as `node#N`, `lview#N`, `lcontainer#N` and `tview#N`, and slots as plain numbers.
-/

namespace ViewHydration

/-- The end instruction that found no matching start. -/
inductive EndInstruction where
  | elementEnd
  | elementContainerEnd
  | i18nEnd
  deriving DecidableEq, Repr, Inhabited

/-- Name of an end instruction. -/
def EndInstruction.name : EndInstruction → String
  | .elementEnd => "elementEnd"
  | .elementContainerEnd => "elementContainerEnd"
  | .i18nEnd => "i18nEnd"

/-- What a constant of a template was expected to be. -/
inductive ConstExpectation where
  | present
  | attributeList
  | localRefList
  | i18nAttributeList
  | i18nMessage
  deriving DecidableEq, Repr, Inhabited

/-- How a constant expectation reads in a message. -/
def ConstExpectation.phrase : ConstExpectation → String
  | .present => "present"
  | .attributeList => "an attribute list"
  | .localRefList => "a local ref list"
  | .i18nAttributeList => "an i18n attribute list"
  | .i18nMessage => "an i18n message"

/-- Broken pairing, ordering or node-kind contracts of an instruction stream. -/
inductive StructuralError where
  | noActiveView
  | bindingBeforeElement (index : Nat)
  | slotOutOfRange (index len : Nat)
  | emptySlot (index : Nat)
  | unbalancedEnd (instruction : EndInstruction)
  | unclosedNodes (view : LViewId) (openCount : Nat)
  | nodeKindMismatch (index : Nat) (expected found : TNodeType)
  | constMismatch (index : Nat) (expected : ConstExpectation)
  | frozenTView (tview : TViewId)
  | unknownTView (tview : TViewId)
  | unknownView (view : LViewId)
  | unknownContainer (container : ContainerId)
  | noRenderParent (index : Nat)
  | viewIndexOutOfRange (index len : Nat)
  | missingTemplate (index : Nat)
  | nestedI18nBlock (index : Nat)
  | notAContainer (index : Nat)
  deriving DecidableEq, Repr, Inhabited

namespace StructuralError

/-- The variant name of the error. -/
def variant : StructuralError → String
  | .noActiveView => "NoActiveView"
  | .bindingBeforeElement .. => "BindingBeforeElement"
  | .slotOutOfRange .. => "SlotOutOfRange"
  | .emptySlot .. => "EmptySlot"
  | .unbalancedEnd .. => "UnbalancedEnd"
  | .unclosedNodes .. => "UnclosedNodes"
  | .nodeKindMismatch .. => "NodeKindMismatch"
  | .constMismatch .. => "ConstMismatch"
  | .frozenTView .. => "FrozenTView"
  | .unknownTView .. => "UnknownTView"
  | .unknownView .. => "UnknownView"
  | .unknownContainer .. => "UnknownContainer"
  | .noRenderParent .. => "NoRenderParent"
  | .viewIndexOutOfRange .. => "ViewIndexOutOfRange"
  | .missingTemplate .. => "MissingTemplate"
  | .nestedI18nBlock .. => "NestedI18nBlock"
  | .notAContainer .. => "NotAContainer"

/-- The error's message. -/
def message : StructuralError → String
  | .noActiveView => "no view is being rendered"
  | .bindingBeforeElement index =>
    s!"elements must be created before any bindings (slot {index})"
  | .slotOutOfRange index len => s!"slot {index} is outside the view data (length {len})"
  | .emptySlot index => s!"slot {index} holds no node"
  | .unbalancedEnd instruction => instruction.name ++ " has no matching start instruction"
  | .unclosedNodes view openCount => s!"view {view} finished with {openCount} unclosed node(s)"
  | .nodeKindMismatch index expected found => s!"slot {index} expected a {expected} node, found {found}"
  | .constMismatch index expected => s!"constant {index} is not " ++ expected.phrase
  | .frozenTView tview => s!"{tview} is frozen after its first creation pass"
  | .unknownTView tview => s!"unknown {tview}"
  | .unknownView view => s!"unknown or destroyed {view}"
  | .unknownContainer container => s!"unknown or destroyed {container}"
  | .noRenderParent index => s!"slot {index} has no DOM parent to insert into"
  | .viewIndexOutOfRange index len =>
    s!"view index {index} is out of range for a container with {len} view(s)"
  | .missingTemplate index => s!"container at slot {index} has no declared template"
  | .nestedI18nBlock index => s!"i18n block at slot {index} opened inside another i18n block"
  | .notAContainer index => s!"slot {index} cannot anchor a view container"

end StructuralError

/-- Why a hydration path could not be read. -/
inductive PathFault where
  /-- The first segment is neither `host` nor a slot index. -/
  | badAnchor (segment : String)
  /-- A later segment is not a known step. -/
  | unknownStep (segment : String)
  /-- The path has no segment at all. -/
  | empty
  deriving DecidableEq, Repr, Inhabited

/-- How a path fault reads in a message. -/
def PathFault.reason : PathFault → String
  | .badAnchor segment => "`" ++ segment ++ "` is neither `host` nor a slot index"
  | .unknownStep segment => "unknown step `" ++ segment ++ "`"
  | .empty => "empty path"

/-- Server markup that does not match what the instruction stream expects. -/
inductive HydrationError where
  | missingContainerInfo (index : Nat)
  | nodeTypeMismatch (index : Nat) (expected : NodeKind) (found : Option NodeKind)
  | tagMismatch (index : Nat) (expected found : String)
  | pathWalkFailed (path : String) (step : Nat)
  | invalidPath (path : String) (fault : PathFault)
  | missingAnchor (index : Nat)
  | missingHost
  | missingNode (index : Nat)
  | viewsOverrun (index : Nat)
  | unreachable (node : NodeId)
  | malformed
  deriving DecidableEq, Repr, Inhabited

namespace HydrationError

/-- The variant name of the error. -/
def variant : HydrationError → String
  | .missingContainerInfo .. => "MissingContainerInfo"
  | .nodeTypeMismatch .. => "NodeTypeMismatch"
  | .tagMismatch .. => "TagMismatch"
  | .pathWalkFailed .. => "PathWalkFailed"
  | .invalidPath .. => "InvalidPath"
  | .missingAnchor .. => "MissingAnchor"
  | .missingHost => "MissingHost"
  | .missingNode .. => "MissingNode"
  | .viewsOverrun .. => "ViewsOverrun"
  | .unreachable .. => "Unreachable"
  | .malformed => "Malformed"

/-- The error's message; a malformed record has none. -/
def message? : HydrationError → Option String
  | .missingContainerInfo index =>
    some s!"There is no hydration info available for the container at slot {index}"
  | .nodeTypeMismatch index expected found =>
    let found := match found with
      | some k => k.name
      | none => "nothing"
    some (s!"expected a " ++ expected.name ++ s!" node for slot {index}, found " ++ found)
  | .tagMismatch index expected found =>
    some ("expected <" ++ expected ++ s!"> for slot {index}, found <" ++ found ++ ">")
  | .pathWalkFailed path step =>
    some ("hydration path `" ++ path ++ s!"` ran out of nodes at step {step}")
  | .invalidPath path fault => some ("invalid hydration path `" ++ path ++ "`: " ++ fault.reason)
  | .missingAnchor index => some s!"path anchor slot {index} holds no element"
  | .missingHost => some "view has no host element"
  | .missingNode index => some s!"no DOM node could be located for slot {index}"
  | .viewsOverrun index =>
    some s!"dehydrated view list for container at slot {index} ran past the container anchor"
  | .unreachable node => some s!"node {node} is not reachable from the view host"
  | .malformed => none

end HydrationError

/-- Failures to parse a message or its metadata. -/
inductive I18nError where
  | unterminatedBlock (raw : String)
  | unterminatedPlaceholder (message : String)
  | unknownPlaceholder (placeholder : String)
  | unbalancedElement (slot : Nat)
  | unclosedElement (slot : Nat)
  | missingSubTemplate (index : Nat)
  | partsMismatch (cooked raw : Nat)
  | substitutionsMismatch (expected found : Nat)
  | structureInAttribute
  deriving DecidableEq, Repr, Inhabited

namespace I18nError

/-- The variant name of the error. -/
def variant : I18nError → String
  | .unterminatedBlock .. => "UnterminatedBlock"
  | .unterminatedPlaceholder .. => "UnterminatedPlaceholder"
  | .unknownPlaceholder .. => "UnknownPlaceholder"
  | .unbalancedElement .. => "UnbalancedElement"
  | .unclosedElement .. => "UnclosedElement"
  | .missingSubTemplate .. => "MissingSubTemplate"
  | .partsMismatch .. => "PartsMismatch"
  | .substitutionsMismatch .. => "SubstitutionsMismatch"
  | .structureInAttribute => "StructureInAttribute"

/-- The error's message. -/
def message : I18nError → String
  | .unterminatedBlock raw => "Unterminated $localize metadata block in \"" ++ raw ++ "\"."
  | .unterminatedPlaceholder message =>
    "unterminated placeholder in message \"" ++ message ++ "\""
  | .unknownPlaceholder placeholder => "unknown placeholder `" ++ placeholder ++ "`"
  | .unbalancedElement slot => s!"message closes element {slot} which is not open"
  | .unclosedElement slot => s!"message leaves element {slot} open"
  | .missingSubTemplate index => s!"message has no sub-template {index}"
  | .partsMismatch cooked raw =>
    s!"localized message has {cooked} cooked part(s) but {raw} raw part(s)"
  | .substitutionsMismatch expected found =>
    s!"localized message needs {expected} substitution(s), got {found}"
  | .structureInAttribute => "attribute messages cannot contain element placeholders"

end I18nError

/-- Any failure of a render operation. -/
inductive RenderError where
  | structural (e : StructuralError)
  | hydration (e : HydrationError)
  | i18n (e : I18nError)
  /-- A node was claimed by a second slot. -/
  | alreadyClaimed (node : NodeId)
  /-- A configuration text could not be read. -/
  | config
  deriving DecidableEq, Repr, Inhabited

namespace RenderError

/-- The error's kind, such as `Structural.EmptySlot`. -/
def kind : RenderError → String
  | .structural e => "Structural." ++ e.variant
  | .hydration e => "Hydration." ++ e.variant
  | .i18n e => "I18n." ++ e.variant
  | .alreadyClaimed _ => "AlreadyClaimed"
  | .config => "Config"

/-- The error's message; a malformed record and an unreadable configuration have none. -/
def message? : RenderError → Option String
  | .structural e => some e.message
  | .hydration e => e.message?
  | .i18n e => some e.message
  | .alreadyClaimed _ => some "Trying to claim a node, which was claimed already."
  | .config => none

end RenderError

instance : Coe StructuralError RenderError := ⟨.structural⟩
instance : Coe HydrationError RenderError := ⟨.hydration⟩
instance : Coe I18nError RenderError := ⟨.i18n⟩

end ViewHydration
