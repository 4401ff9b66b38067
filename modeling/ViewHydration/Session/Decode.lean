import ViewHydration.Session.Request
import ViewHydration.Json.Strict
import ViewHydration.Json.Decode
import ViewHydration.Json.Writer

/-!
# Reading requests

A request is one JSON document. Its fields are read by name; of a field given twice the last one
counts, and a field set to `null` is missing. Fields are read in three ways:

* A field the request cannot do without is read strictly: missing, it is a missing field, and of
  the wrong type it is refused with the type it must have. Counts are non-negative integers below
  `2 ^ 64` written without fraction or exponent.
* A list field may be missing, which is the empty list, but anything other than a list is
  refused, and so is an item of the wrong shape: lists of strings, lists of string pairs (each
  exactly two strings), constants (each an object with a known key) and instruction blocks.
* Some optional fields are read leniently: a value of the wrong type counts as absent. So do a
  template's `embedded` and `kind` (a `kind` string must name a kind), a directive's `tag` and
  `attr`, a loop's variable, and the script's variables.

An instruction argument that takes text or a count may instead be `{"var": name}`, the value of
a variable when the instruction runs; an argument that is neither is refused as such. Template
names and local reference names are literal.
A template name in a program is looked up when the program is read, among every template the
script declares (the later of two with one name wins), so a template may name itself.

A script reads its templates first, the names of all of them before any declaration, then its
configuration, its directive rules and its list of steps; each step is read when its turn comes.
A template may have at most `slotLimit` slots and variables together.

Nested values (instruction blocks) are read with a fuel of one more than the nesting depth a
document may have, which a value read from text never exhausts.
-/

namespace ViewHydration

/-- A decoding result. -/
abbrev Decode := Except RequestError

namespace Decode

/-- Fuel for nested values: more than the nesting depth of any document. -/
def nestingBound : Nat := 129

/-- A required string field. -/
def string (j : Json) (f : String) : Decode String :=
  match j.member? f with
  | none => throw (.missingField f)
  | some (.str s) => pure s
  | some _ => throw (.notString f)

/-- An optional string field that, when present, must be a string. -/
def string? (j : Json) (f : String) : Decode (Option String) :=
  match j.member? f with
  | none => pure none
  | some (.str s) => pure (some s)
  | some _ => throw (.notString f)

/-- A required count field. -/
def count (j : Json) (f : String) : Decode Nat :=
  match j.member? f with
  | none => throw (.missingField f)
  | some (.num (.count n)) => pure n
  | some _ => throw (.notCount f)

/-- A count field that must be present and a count; missing, it is refused as not a count. -/
def countValue (j : Json) (f : String) : Decode Nat :=
  match j.member? f with
  | some (.num (.count n)) => pure n
  | _ => throw (.notCount f)

/-- An optional count field that, when present, must be a count. -/
def count? (j : Json) (f : String) : Decode (Option Nat) :=
  match j.member? f with
  | none => pure none
  | some (.num (.count n)) => pure (some n)
  | some _ => throw (.notCount f)

/-- A lenient string field: absent unless it is a string. -/
def looseString (j : Json) (f : String) : Option String := (j.member? f).bind Json.string?

/-- A lenient list: the items of an array, and no items for anything else. -/
def looseItems (j : Option Json) : List Json := (j.bind Json.items?).getD []

/-- A list field: no items when missing. -/
def list (j : Json) (f : String) : Decode (List Json) :=
  match j.member? f with
  | none => pure []
  | some (.arr xs) => pure xs
  | some _ => throw (.notList f)

/-- A list field of strings. -/
def strings (j : Json) (f : String) : Decode (List String) := do
  (← list j f).mapM fun
    | .str s => pure s
    | _ => throw (.notStrings f)

/-- A list field of pairs of strings, each written as a list of exactly two strings. -/
def pairs (j : Json) (f : String) : Decode (List (String × String)) := do
  (← list j f).mapM fun
    | .arr [.str k, .str v] => pure (k, v)
    | _ => throw (.notPairs f)

/-- A variable's value given in a request: a string as it is, any other value as its JSON text
with each object's keys once and in order. -/
def valueText : Json → String
  | .str s => s
  | j => j.canonical.render

/-- A text argument. -/
def textArg (f : String) : Json → Decode TextArg
  | .str s => pure (.lit s)
  | j => match j.member? "var" with
    | some (.str name) => pure (.var name)
    | _ => throw (.notTextArg f)

/-- A count argument. -/
def countArg (f : String) : Json → Decode CountArg
  | .num (.count n) => pure (.lit n)
  | j => match j.member? "var" with
    | some (.str name) => pure (.var name)
    | _ => throw (.notCountArg f)

/-- A required text argument field. -/
def text (j : Json) (f : String) : Decode TextArg :=
  match j.member? f with
  | none => throw (.missingField f)
  | some v => textArg f v

/-- An optional text argument field. -/
def text? (j : Json) (f : String) : Decode (Option TextArg) :=
  match j.member? f with
  | none => pure none
  | some v => some <$> textArg f v

/-- A required count argument field. -/
def countOf (j : Json) (f : String) : Decode CountArg :=
  match j.member? f with
  | none => throw (.missingField f)
  | some v => countArg f v

/-- An optional count argument field. -/
def countOf? (j : Json) (f : String) : Decode (Option CountArg) :=
  match j.member? f with
  | none => pure none
  | some v => some <$> countArg f v

/-- The template a name stands for, among the declared ones, the later declaration first. -/
def templateNamed (templates : List (String × TViewId)) (name : String) : Decode TViewId :=
  match templates.lookup name with
  | some tv => pure tv
  | none => throw (.unknownTemplate name)

/-- An instruction, with the blocks of `if` and `repeat` read with one less fuel. -/
def instr (templates : List (String × TViewId)) : Nat → Json → Decode Instr
  | 0, _ => throw (.missingField "i")
  | fuel + 1, j => do
    let op ← string j "i"
    let block (f : String) : Decode (List Instr) :=
      match j.member? f with
      | none => pure []
      | some (.arr xs) => xs.mapM (instr templates fuel)
      | some _ => throw .notInstructionList
    match op with
    | "elementStart" =>
      pure (.elementStart (← countOf j "index") (← text j "tag") (← countOf? j "attrs") (← countOf? j "refs"))
    | "element" =>
      pure (.element (← countOf j "index") (← text j "tag") (← countOf? j "attrs") (← countOf? j "refs"))
    | "elementEnd" => pure .elementEnd
    | "elementContainerStart" =>
      pure (.elementContainerStart (← countOf j "index") (← countOf? j "attrs") (← countOf? j "refs"))
    | "elementContainer" =>
      pure (.elementContainer (← countOf j "index") (← countOf? j "attrs") (← countOf? j "refs"))
    | "elementContainerEnd" => pure .elementContainerEnd
    | "text" => pure (.text (← countOf j "index") (← text? j "value"))
    | "textInterpolate" => pure (.textInterpolate (← countOf j "index") (← text j "value"))
    | "template" => do
      let index ← countOf j "index"
      let tv ← templateNamed templates (← string j "template")
      pure (.template index tv (← countOf? j "attrs") (← countOf? j "refs"))
    | "createEmbeddedView" => do
      let slot ← countOf j "slot"
      let position ← countOf j "at"
      let tv ← match ← string? j "template" with
        | some name => some <$> templateNamed templates name
        | none => pure none
      pure (.createEmbeddedView slot position tv)
    | "removeEmbeddedView" => pure (.removeEmbeddedView (← countOf j "slot") (← countOf j "at"))
    | "clearContainer" => pure (.clearContainer (← countOf j "slot"))
    | "containerLength" => pure (.containerLength (← countOf j "slot"))
    | "createContainerRef" => pure (.createContainerRef (← countOf j "index"))
    | "i18nStart" => pure (.i18nStart (← countOf j "index") (← countOf j "message") (← countOf? j "sub"))
    | "i18n" => pure (.i18n (← countOf j "index") (← countOf j "message") (← countOf? j "sub"))
    | "i18nEnd" => pure .i18nEnd
    | "i18nAttributes" => pure (.i18nAttributes (← countOf j "index") (← countOf j "attrs"))
    | "i18nExp" => pure (.i18nExp (← text j "value"))
    | "i18nApply" => pure (.i18nApply (← countOf j "index"))
    | "localRef" => pure (.localRef (← string j "name"))
    | "removeLocalRef" => pure (.removeLocalRef (← string j "name"))
    | "removeSlotNode" => pure (.removeSlotNode (← countOf j "index"))
    | "probe" => pure .probe
    | "if" => do
      let var ← string j "var"
      pure (.cond var (← block "then") (← block "else"))
    | "repeat" => do
      let n ← countOf j "count"
      pure (.loop n ((looseString j "var").getD "i") (← block "do"))
    | other => throw (.unknownInstruction other)

/-- A block of instructions: the items of a list field, none when it is missing. -/
def block (templates : List (String × TViewId)) (j : Json) (f : String) : Decode (List Instr) :=
  match j.member? f with
  | none => pure []
  | some (.arr xs) => xs.mapM (instr templates nestingBound)
  | some _ => throw .notInstructionList

/-- A localized message given as `cooked`, `raw` and `subs` lists of strings. -/
def localized (j : Json) : Decode LocalizedMessage := do
  pure { cooked := ← strings j "cooked", raw := ← strings j "raw",
         substitutions := ← strings j "subs" }

/-- A constant of a template's pool: an object read by the first of its keys `attrs`, `refs`,
`message`, `localized` and `i18nAttrs` that is present, `null` included. A list set to `null` is
empty, and so are the parts of a `localized` message set to `null`. -/
def const (j : Json) : Decode Const := do
  let .obj _ := j | throw .constNotObject
  if (j.entry? "attrs").isSome then return .attrs (← pairs j "attrs")
  if (j.entry? "refs").isSome then return .localRefs (← strings j "refs")
  if (j.entry? "message").isSome then return .message (← string j "message")
  if let some v := j.entry? "localized" then return .localized (← localized v)
  if (j.entry? "i18nAttrs").isSome then return .i18nAttrs (← pairs j "i18nAttrs")
  throw .unknownConstKind

/-- Largest number of slots a template may declare. -/
def slotLimit : Nat := 100000

/-- The kind a name stands for. -/
def kindNamed : String → Decode TViewKind
  | "Root" => pure .root
  | "Component" => pure .component
  | "Embedded" => pure .embedded
  | k => throw (.unknownKind k)

/-- A template declaration: `embedded` makes it an embedded template with that id, and `kind`
then overrides the kind. -/
def template (templates : List (String × TViewId)) (j : Json) : Decode TemplateSpec := do
  let name ← string j "name"
  let decls ← count j "decls"
  let vars := (← count? j "vars").getD 0
  if slotSpan decls vars > slotLimit then throw .templateTooLarge
  let consts ← (← list j "consts").mapM const
  let ssrId := looseString j "embedded"
  let kind ← match looseString j "kind" with
    | some k => kindNamed k
    | none => pure (if ssrId.isSome then TViewKind.embedded else .root)
  let create ← block templates j "create"
  let update ← block templates j "update"
  pure { name := name,
         declaration := { kind := kind, ssrId := ssrId, decls := decls, vars := vars,
                          consts := consts, program := { create := create, update := update } } }

/-- A directive rule; its flags are a 16-bit word. -/
def directive (j : Json) : Decode DirectiveRule := do
  let flags ← count j "flags"
  if flags ≥ Nat.pow 2 16 then throw .flagsTooWide
  pure { tag := looseString j "tag", attr := looseString j "attr", flags := flags }

/-- Where a configuration comes from: missing is the default, a boolean the default with
hydration on or off, a string configuration text, anything else a configuration document. -/
def configSource : Option Json → ConfigSource
  | none => .default
  | some (.bool b) => .preset b
  | some (.str s) => .text s
  | some j => .document j

/-- The variables of a script, from an object: each value a string, or any other value as its
JSON text. Anything but an object gives none. -/
def vars (j : Json) : List (String × String) :=
  match j.member? "vars" with
  | some (.obj members) =>
    match (Json.obj members).canonical with
    | .obj ms => ms.map fun m => (m.1.text, valueText m.2)
    | _ => []
  | _ => []

/-- The declared template names with their ids, the later declaration of a name first. Every
declaration must have a name. -/
def templateTable (items : List Json) : Decode (List (String × TViewId)) := do
  let names ← items.mapM (string · "name")
  pure (names.mapIdx fun i n => (n, (⟨i⟩ : TViewId))).reverse

/-- A script. Its templates are read first, every name before the declarations; then its
configuration, and when that cannot be read nothing else is; then its directive rules and its
list of steps, each step read when its turn comes. -/
def script (j : Json) : Decode Script := do
  let items ← list j "templates"
  let templates ← items.mapM (template (← templateTable items))
  let some config := (configSource (j.member? "config")).resolve | pure { config := none }
  let directives ← (← list j "directives").mapM directive
  let steps ← list j "steps"
  pure { config := some config, vars := vars j, directives := directives, templates := templates,
         steps := steps }

/-- A request. -/
def request (j : Json) : Decode Request := do
  let op ← string j "op"
  match op with
  | "parseMessage" => pure (.parseMessage (← string j "message"))
  | "planBlock" => pure (.planBlock (← string j "message") (count? j "root"))
  | "planAttribute" => pure (.planAttribute (← string j "message"))
  | "expressionBit" => pure (.expressionBit (← count j "n"))
  | "translationForTemplate" => do
    let sub ← count? j "sub"
    pure (.translationForTemplate (← string j "message") sub)
  | "removeInnerTemplateTranslation" => pure (.removeInnerTemplateTranslation (← string j "message"))
  | "splitBlock" => pure (.splitBlock (← string j "cooked") (← string j "raw"))
  | "findEndOfBlock" => pure (.findEndOfBlock (← string j "cooked") (← string j "raw"))
  | "parseMetadata" => pure (.parseMetadata (← string j "cooked") (← string j "raw"))
  | "parsePlaceholder" => pure (.parsePlaceholder (← string j "cooked") (← string j "raw"))
  | "localizedMetadata" => pure (.localizedMetadata (← localized j))
  | "localizedMessage" => pure (.localizedMessage (← localized j))
  | "parsePath" => pure (.parsePath (← string j "path"))
  | "ngh" => pure (.record (← string j "json"))
  | "config" => pure (.config (← string j "json"))
  | "scenario" => pure (.script (← script j))
  | other => throw (.unknownOp other)

end Decode

namespace Request

/-- Reads a request from one line of text. -/
def read (line : String) : Except RequestError Request :=
  match Json.readDocument line with
  | .error e => throw (.badJson e.message)
  | .ok j => Decode.request j

end Request

end ViewHydration
