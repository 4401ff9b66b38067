import ViewHydration.Session.Decode
import ViewHydration.Session.Report
import ViewHydration.Render.Mount

/-!
# Sessions

A session is the state a script runs against: the render context (with its document), the
template declarations it registers in every new context, the directive rules, the variables, the
names given to nodes, the roots whose markup each step reports, and the stored mounts.

Templates are registered in declaration order, so the template declared `k`-th has id `k` in
every context; of two declarations with one name, the later one is the one a name finds.

Steps run in `SessionM`: a failure stops the step but keeps every change made before it, so a
step that fails half way leaves the session as far as it got.

## References

A step names document nodes and views by references, resolved while the step runs:

* a view is a mount's name (its root view), or `{"handle": name, "path": [[slot, i], ...]}`,
  which from the root view goes, for each pair, to view `i` of the container at `slot`; a path
  that is not a list is no path, but each of its steps must be a pair of counts. Any value that
  is not a name is read as the second form, so one without a `handle` lacks that field;
* a node is a name, `{"from": node, "steps": [...]}` (moves from a node, the list read
  leniently, each move a known name), or `{"view": view, "slot": n}`, the native node of a slot
  (the slot a count, missing or not). Anything else is a bad node reference.

A step field that holds a reference must be present and not `null`.

## Main definitions

- `Session` — the state of a running script
- `SessionM` — steps that change a session and may fail
- `Session.view`, `Session.node` — resolving references
- `Session.build` — creating a tree of nodes as a step describes it
- `Session.snapshot` — what every step answer reports of the state
-/

namespace ViewHydration

/-- Why a step failed: the render context refused it, or the step itself cannot be carried out. -/
inductive StepError where
  | render (e : RenderError)
  | request (e : RequestError)
  deriving Inhabited

namespace StepError

/-- The error answer of a failed step. -/
def toJson : StepError → Json
  | .render e => e.toJson
  | .request e => requestError e.message

end StepError

/-- The state of a running script. -/
structure Session where
  ctx : Context
  templates : List TemplateSpec
  directives : List DirectiveRule
  vars : List (String × String)
  /-- Node names, the latest first. -/
  names : List (String × NodeId) := []
  /-- Roots under their keys, each key once, in the order the keys were first used. -/
  roots : List (String × NodeId) := []
  /-- Stored mounts under their names, each name once. -/
  mounts : List (String × Mount) := []
  deriving Inhabited

/-- Computations on a session that may fail; a failure keeps the changes made before it. -/
abbrev SessionM := ExceptT StepError (StateM Session)

/-- Replaces the value under a key, or adds the key at the end. -/
def assocSet {α : Type} (xs : List (String × α)) (k : String) (v : α) : List (String × α) :=
  if xs.any (·.1 == k) then xs.map fun e => if e.1 == k then (k, v) else e
  else xs ++ [(k, v)]

namespace Session

/-- A context over a document with every template registered, in declaration order. -/
def freshContext (doc : Document) (config : Config) (directives : List DirectiveRule)
    (templates : List TemplateSpec) : Context :=
  let c := Context.create doc config (some (DirectiveRule.resolver directives))
  let registry := templates.foldl (fun r t => (r.createTView t.declaration).1) c.registry
  { c with registry := registry }

/-- The session before the first step of a script: an empty document. -/
def start (config : Config) (script : Script) : Session :=
  { ctx := freshContext {} config script.directives script.templates,
    templates := script.templates, directives := script.directives, vars := script.vars }

/-- The template ids by name, the later declaration of a name first. -/
def templateIds (s : Session) : List (String × TViewId) :=
  (s.templates.mapIdx fun i t => (t.name, (⟨i⟩ : TViewId))).reverse

/-- The scope programs run in. -/
def scope (s : Session) : Scope := { vars := s.vars }

/-- Fails with a request error. -/
def refuse {α : Type} (e : RequestError) : SessionM α := throw (.request e)

/-- The value of a reading, or its failure. -/
def need {α : Type} : Decode α → SessionM α
  | .ok a => pure a
  | .error e => refuse e

/-- Runs a render operation and keeps the context it leaves, also when it fails. -/
def render {α : Type} (op : RenderM α) : SessionM α := do
  let s ← get
  let (r, ctx) := (op.run).run s.ctx
  set { s with ctx := ctx }
  match r with
  | .ok a => pure a
  | .error e => throw (.render e)

/-- Changes the document. -/
def editDoc (f : Document → Document) : SessionM Unit :=
  modify fun s => { s with ctx := { s.ctx with doc := f s.ctx.doc } }

/-- Adds a node made by `f` to the document. -/
def createNode (f : Document → Document × NodeId) : SessionM NodeId := do
  let s ← get
  let (doc, n) := f s.ctx.doc
  set { s with ctx := { s.ctx with doc := doc } }
  pure n

/-- Gives a node a name. -/
def setName (name : String) (n : NodeId) : SessionM Unit :=
  modify fun s => { s with names := (name, n) :: s.names }

/-- Makes a node a root, under its name or else under `#` and its id. -/
def addRoot (name : Option String) (n : NodeId) : SessionM Unit :=
  modify fun s => { s with roots := assocSet s.roots (name.getD ("#" ++ toString n.idx)) n }

/-- The id of a template by name. -/
def template (name : String) : SessionM TViewId := do
  match (← get).templateIds.lookup name with
  | some tv => pure tv
  | none => refuse (.unknownTemplate name)

/-- The mount stored under a name. -/
def mount (name : String) : SessionM Mount := do
  match (← get).mounts.lookup name with
  | some m => pure m
  | none => refuse (.unknownHandle name)

/-- A step of a view path: a list of exactly two counts, the slot and the position. -/
def pathHop : Json → Decode (Nat × Nat)
  | .arr [a, b] =>
    match a.count?, b.count? with
    | some slot, some i => pure (slot, i)
    | _, _ => throw (.notCount "path")
  | _ => throw .badViewHop

/-- The view at the given position of the container at a slot of a view. -/
def viewIn (v : LViewId) (slot position : Nat) : SessionM LViewId := do
  let cid ← render (RenderM.containerIn v slot)
  let c ← render (RenderM.container cid)
  match c.views[position]? with
  | some w => pure w
  | none => refuse .viewPathOutOfRange

/-- The live view a reference stands for. -/
def view : Json → SessionM LViewId
  | .str h => return (← mount h).root
  | j => do
    let m ← mount (← need (Decode.string j "handle"))
    (Decode.looseItems (j.member? "path")).foldlM
      (fun v p => do let (slot, i) ← need (pathHop p); viewIn v slot i) m.root

/-- The value of a step field that holds a reference. -/
def reference (j : Json) (f : String) : SessionM Json := do
  let some r := j.member? f | refuse (.missingField f)
  pure r

/-- The view a step field refers to. -/
def viewAt (j : Json) (f : String) : SessionM LViewId := do view (← reference j f)

/-- The neighbour a tree step moves to. -/
def move (d : Document) (n : NodeId) : TreeStep → Option NodeId
  | .firstChild => d.firstChild? n
  | .lastChild => d.lastChild? n
  | .nextSibling => d.nextSibling? n
  | .previousSibling => d.prevSibling? n
  | .parent => d.parent? n

/-- Takes one step of a walk, named by `j`. -/
def walkStep (n : NodeId) (j : Json) : SessionM NodeId := do
  let some st := j.string?.bind TreeStep.ofName? | refuse .unknownNodeStep
  match move (← get).ctx.doc n st with
  | some m => pure m
  | none => refuse .stepLeadsNowhere

/-- The node a reference stands for, with the start of a walk resolved with one less fuel. -/
def node : Nat → Json → SessionM NodeId
  | 0, _ => refuse .badNodeReference
  | _, .str name => do
    match (← get).names.lookup name with
    | some n => pure n
    | none => refuse (.unknownNode name)
  | fuel + 1, j@(.obj _) =>
    match j.entry? "from" with
    | some start => do
      let n ← node fuel start
      (Decode.looseItems (j.member? "steps")).foldlM walkStep n
    | none =>
      match j.entry? "view" with
      | some v => do
        let v ← view v
        let slot ← need (Decode.countValue j "slot")
        let lv ← render (RenderM.lview v)
        match lv.native? slot with
        | some n => pure n
        | none => refuse .slotHoldsNoNode
      | none => refuse .badNodeReference
  | _, _ => refuse .badNodeReference

/-- The node a step field refers to. -/
def nodeAt (j : Json) (f : String) : SessionM NodeId := do
  node Decode.nestingBound (← reference j f)

/-- Sets the attributes that the `attrs` field of `j` gives an element, in order. -/
def setAttributes (n : NodeId) (j : Json) : SessionM Unit := do
  (← need (Decode.pairs j "attrs")).forM fun (k, v) => editDoc (·.setAttribute n k v)

/-- Creates the nodes a tree describes, depth first, each before its children, appending each
child to its parent once it is complete, and names a named node once its subtree is. A node is
an element (`el`, with `attrs` and `children`), else a text (`text`), else a comment (`comment`);
the text of a text or comment that is not a string is empty, and children that are not a list
are none. A failure leaves the nodes made so far. -/
def build : Nat → Json → SessionM NodeId
  | 0, _ => refuse .treeNodeKind
  | fuel + 1, j => do
    let n ← match j.entry? "el" with
      | some (.str tag) => do
        let n ← createNode (·.createElement tag)
        setAttributes n j
        (Decode.looseItems (j.member? "children")).forM fun c => do
          let child ← build fuel c
          editDoc (·.appendChild n child)
        pure n
      | some _ => refuse .tagNotString
      | none =>
        match j.entry? "text", j.entry? "comment" with
        | some t, _ => createNode (·.createText (t.string?.getD ""))
        | none, some t => createNode (·.createComment (t.string?.getD ""))
        | none, none => refuse .treeNodeKind
    if let some name := Decode.looseString j "name" then setName name n
    pure n

/-- The state every step answer reports: the markup of each root, the number of document nodes,
claimed nodes, pending dehydrated views and live views, and the depth of the position stack. -/
def snapshot (s : Session) : Json :=
  let c := s.ctx
  Json.object [
    ("html", Json.object (s.roots.map fun (k, n) => (k, .str (c.doc.outerHtml n)))),
    ("nodes", Json.nat c.doc.size), ("claims", Json.nat c.claims.size),
    ("pending", Json.nat c.pool.size), ("views", Json.nat c.registry.lviewCount),
    ("depth", Json.nat c.depth)]

end Session

end ViewHydration
