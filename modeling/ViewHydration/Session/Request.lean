import ViewHydration.Render.Context
import ViewHydration.Template.TView
import ViewHydration.I18n.Localize

/-!
# Requests

A request is either a query of one of the library's text formats or a script: the templates,
variables and directive rules of a session, and the steps it runs.

A script's templates, variables and directive rules are read before any step runs, and a
template program that cannot be read, or that names an unknown template, fails the whole
request. Steps are read as they run: each step reads its fields in order, resolving the nodes and
views they refer to as it goes, so a step fails at the first field it cannot use, after the
effects of what it did before.

## Main definitions

- `RequestError` — why a request or a step cannot be carried out
- `TreeStep` — a move between document nodes, as node references use them
- `Script` — templates, variables, directives and steps
- `Request` — a pure query or a script
-/

namespace ViewHydration

/-- A move from a document node to a neighbour. -/
inductive TreeStep where
  | firstChild
  | lastChild
  | nextSibling
  | previousSibling
  | parent
  deriving DecidableEq, Repr, Inhabited

namespace TreeStep

/-- The move a name stands for. -/
def ofName? : String → Option TreeStep
  | "firstChild" => some .firstChild
  | "lastChild" => some .lastChild
  | "nextSibling" => some .nextSibling
  | "previousSibling" => some .previousSibling
  | "parent" => some .parent
  | _ => none

end TreeStep

/-- Why a request or a step cannot be carried out. -/
inductive RequestError where
  /-- The line is not a JSON document; the message says why and where. -/
  | badJson (message : String)
  | missingField (field : String)
  | notString (field : String)
  | notCount (field : String)
  /-- An instruction argument that is neither a count nor a variable reference. -/
  | notCountArg (field : String)
  /-- An instruction argument that is neither a text nor a variable reference. -/
  | notTextArg (field : String)
  | unknownOp (op : String)
  | unknownStep (op : String)
  | unknownInstruction (op : String)
  | unknownTemplate (name : String)
  | unknownHandle (name : String)
  | unknownNode (name : String)
  /-- A template whose slots and variables together are more than a template may have. -/
  | templateTooLarge
  | unknownKind (kind : String)
  /-- A list field holding something else. -/
  | notList (field : String)
  /-- A list field with an item that is not a string. -/
  | notStrings (field : String)
  /-- A list field with an item that is not a pair of strings. -/
  | notPairs (field : String)
  /-- An instruction block that is not a list. -/
  | notInstructionList
  /-- A constant of a template's pool that is not an object. -/
  | constNotObject
  /-- A constant of a template's pool with none of the known keys. -/
  | unknownConstKind
  /-- Directive flags that do not fit a 16-bit word. -/
  | flagsTooWide
  | badNodeReference
  /-- A step of a view path that is not a pair of a slot and a position. -/
  | badViewHop
  | unknownNodeStep
  | stepLeadsNowhere
  | slotHoldsNoNode
  | viewPathOutOfRange
  /-- A tree node with none of `el`, `text` and `comment`. -/
  | treeNodeKind
  | tagNotString
  /-- A hydration record whose JSON text a reader refuses; the message says why and where. -/
  | unreadableRecord (message : String)
  deriving DecidableEq, Repr, Inhabited

namespace RequestError

/-- The message of a request error. -/
def message : RequestError → String
  | .badJson m => "bad request JSON: " ++ m
  | .missingField f => "missing field `" ++ f ++ "`"
  | .notString f => "field `" ++ f ++ "` must be a string"
  | .notCount f => "field `" ++ f ++ "` must be a non-negative integer"
  | .notCountArg f => "`" ++ f ++ "` must be an integer or \x7b\"var\": name\x7d"
  | .notTextArg f => "`" ++ f ++ "` must be a string or \x7b\"var\": name\x7d"
  | .unknownOp op => "unknown op `" ++ op ++ "`"
  | .unknownStep op => "unknown step `" ++ op ++ "`"
  | .unknownInstruction op => "unknown instruction `" ++ op ++ "`"
  | .unknownTemplate name => "unknown template `" ++ name ++ "`"
  | .unknownHandle name => "unknown handle `" ++ name ++ "`"
  | .unknownNode name => "unknown node `" ++ name ++ "`"
  | .templateTooLarge => "template too large"
  | .unknownKind k => "unknown template kind `" ++ k ++ "`"
  | .notList f => "`" ++ f ++ "` must be a list"
  | .notStrings f => "`" ++ f ++ "` must hold strings"
  | .notPairs f => "`" ++ f ++ "` must hold [string, string] pairs"
  | .notInstructionList => "instruction list must be an array"
  | .constNotObject => "const must be an object"
  | .unknownConstKind => "unknown const kind"
  | .flagsTooWide => "flags must fit 16 bits"
  | .badNodeReference => "bad node reference"
  | .badViewHop => "view path hops are [slot, index]"
  | .unknownNodeStep => "unknown node step"
  | .stepLeadsNowhere => "node step leads nowhere"
  | .slotHoldsNoNode => "slot holds no node"
  | .viewPathOutOfRange => "view path index out of range"
  | .treeNodeKind => "tree node needs `el`, `text` or `comment`"
  | .tagNotString => "`el` must be a string"
  | .unreadableRecord m => m

end RequestError

/-- A template as a script declares it. -/
structure TemplateSpec where
  name : String
  declaration : TemplateDef
  deriving Repr, Inhabited

/-- Where a configuration comes from. -/
inductive ConfigSource where
  /-- The default configuration. -/
  | default
  /-- The default configuration, with hydration switched on or off. -/
  | preset (hydrating : Bool)
  /-- A configuration document. -/
  | document (j : Json)
  /-- A configuration as JSON text. -/
  | text (s : String)
  deriving Repr, Inhabited

namespace ConfigSource

/-- The configuration a source stands for, when it can be read. A document is read as the text
a map-backed writer gives for it, so each key counts once, with its last value. -/
def resolve : ConfigSource → Option Config
  | .default => some {}
  | .preset b => some { hydration := b }
  | .document j => Config.ofJson? j.canonical
  | .text s => Config.read? s

end ConfigSource

/-- A directive rule of a script: every node whose tag is `tag` (when given) and that has the
static attribute `attr` (when given) gets the rule's flags. -/
structure DirectiveRule where
  tag : Option String := none
  attr : Option String := none
  flags : Nat := 0
  deriving DecidableEq, Repr, Inhabited

namespace DirectiveRule

/-- The flags a list of rules gives a node: the union of the flags of every rule it matches. -/
def flagsFor (rules : List DirectiveRule) (tag : String) (attrs : List (String × String)) :
    TNodeFlags :=
  ⟨rules.foldl (fun acc r =>
    let tagOk := match r.tag with
      | some t => t == tag
      | none => true
    let attrOk := match r.attr with
      | some a => attrs.any (·.1 == a)
      | none => true
    if tagOk && attrOk then acc ||| r.flags else acc) 0⟩

/-- The directive resolver of a script: its rules give the flags, and both hooks succeed, the
context recording each call. -/
def resolver (rules : List DirectiveRule) : DirectiveResolver :=
  { matchFlags := flagsFor rules, instantiate := fun _ => .ok (), contentQueries := fun _ => .ok () }

end DirectiveRule

/-- A script: the configuration of its first context (`none` when it cannot be read, and then
nothing else of the script is read), its variables, directive rules and templates, and its
steps, each still to be read when its turn comes. -/
structure Script where
  config : Option Config := some {}
  vars : List (String × String) := []
  directives : List DirectiveRule := []
  templates : List TemplateSpec := []
  steps : List Json := []
  deriving Inhabited

/-- A request: a query of one text format, or a script. -/
inductive Request where
  | parseMessage (message : String)
  /-- Plans the block of a message for the template node `root`. The root is read only once the
  message parses, so it is kept as read: a count, none, or why it cannot be read. -/
  | planBlock (message : String) (root : Except RequestError (Option Nat))
  | planAttribute (message : String)
  | expressionBit (n : Nat)
  | translationForTemplate (message : String) (sub : Option Nat)
  | removeInnerTemplateTranslation (message : String)
  | splitBlock (cooked raw : String)
  | findEndOfBlock (cooked raw : String)
  | parseMetadata (cooked raw : String)
  | parsePlaceholder (cooked raw : String)
  | localizedMetadata (m : LocalizedMessage)
  | localizedMessage (m : LocalizedMessage)
  | parsePath (path : String)
  | record (text : String)
  | config (text : String)
  | script (s : Script)
  deriving Inhabited

end ViewHydration
