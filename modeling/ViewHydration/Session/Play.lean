import ViewHydration.Session.Basic

/-!
# Playing scripts

Each step of a script runs against the session and gives an answer: its value or its error, the
events the render logged while it ran (only when there were any), and a snapshot of the session
after it. A failing step keeps what it changed before it failed, and the script goes on.

A step reads its fields as it goes: it resolves a reference, or reads a field, at the point
where it needs it, so of two faults the first met is the one reported, and what the step did
before stays done. An operation on a container first resolves the view and reads `slot`, finds
the container, and only then reads what else it needs. A hydration record is answered as its
JSON text reads back, so one nested deeper than a document may be is refused.

A configuration is read before a context is made from it: a missing one is the default, `true`
and `false` the default with hydration on and off, a string a configuration text, and any other
value a configuration document read as a map-backed reader keeps it. A script whose first
configuration cannot be read fails as a whole.

## Main definitions

- `Session.step` — one step
- `Session.answerStep` — one step with its answer
- `Script.play` — every step, with its answer
-/

namespace ViewHydration

namespace Session

/-- The container at a slot of the view a step names, with the view read from `view` and the
slot from `slot`. -/
def containerAt (j : Json) : SessionM ContainerId := do
  let v ← viewAt j "view"
  let slot ← need (Decode.count j "slot")
  render (RenderM.containerIn v slot)

/-- Creates a node of the document from the text in `value`, and names it when `name` is a
string. -/
def createFrom (j : Json) (f : Document → String → Document × NodeId) : SessionM Json := do
  let value ← need (Decode.string j "value")
  let n ← createNode (f · value)
  if let some name := Decode.looseString j "name" then setName name n
  pure (Json.nat n.idx)

/-- A record as its JSON text reads back. A record nested deeper than a document may be is
refused, with the reader's reason and position. -/
def reread (record : ViewRecord) : SessionM Json :=
  match Json.readDocument record.render with
  | .ok j => pure j
  | .error e => refuse (.unreadableRecord e.message)

/-- Runs one step. -/
def step (j : Json) : SessionM Json := do
  match ← need (Decode.string j "op") with
  | "build" =>
    let tree ← reference j "tree"
    let n ← build Decode.nestingBound tree
    addRoot (Decode.looseString tree "name") n
    pure (Json.nat n.idx)
  | "host" =>
    let name ← need (Decode.string j "name")
    let n ← createNode (·.createElement ((Decode.looseString j "tag").getD "app"))
    setAttributes n j
    setName name n
    addRoot (some name) n
    pure (Json.nat n.idx)
  | "mount" =>
    let host ← nodeAt j "host"
    let tv ← template (← need (Decode.string j "template"))
    let label := (Decode.looseString j "as").getD "main"
    let m ← render (RenderM.mount (← get).scope host tv)
    modify fun s => { s with mounts := assocSet s.mounts label m }
    pure (Json.object [("root", Json.nat m.root.idx)])
  | "refresh" =>
    let m ← mount (← need (Decode.string j "handle"))
    render (RenderM.refresh (← get).scope m)
    pure .null
  | "unmount" =>
    let h ← need (Decode.string j "handle")
    let m ← mount h
    modify fun s => { s with mounts := s.mounts.filter (·.1 != h) }
    render (RenderM.unmount m)
    pure .null
  | "markStable" =>
    let h ← need (Decode.string j "handle")
    let m ← mount h
    modify fun s =>
      let (ctx, m) := s.ctx.markStable m
      { s with ctx := ctx, mounts := assocSet s.mounts h m }
    pure .null
  | "isStable" => return .bool (← mount (← need (Decode.string j "handle"))).stable
  | "annotate" =>
    let v ← viewAt j "view"
    match (← get).ctx.annotate v with
    | .ok (ctx, record) =>
      modify fun s => { s with ctx := ctx }
      reread record
    | .error e => throw (.render e)
  | "serialize" =>
    let v ← viewAt j "view"
    match (← get).ctx.serializeView v with
    | .ok record => reread record
    | .error e => throw (.render e)
  | "newContext" =>
    let some config := (Decode.configSource (j.member? "config")).resolve
      | throw (.render .config)
    modify fun s =>
      { s with ctx := freshContext s.ctx.doc config s.directives s.templates, mounts := [] }
    pure (Json.object [("hydrating", .bool config.hydration),
      ("strategy", .str (if config.hydration then "hydrating" else "creating"))])
  | "set" =>
    let some value := j.member? "value" | refuse (.missingField "value")
    let var ← need (Decode.string j "var")
    modify fun s => { s with vars := (var, Decode.valueText value) :: s.vars.filter (·.1 != var) }
    pure .null
  | "unset" =>
    let var ← need (Decode.string j "var")
    modify fun s => { s with vars := s.vars.filter (·.1 != var) }
    pure .null
  | "createEmbeddedView" =>
    let cid ← containerAt j
    let position ← need (Decode.count j "at")
    let scope := (← get).scope
    let w ← match ← need (Decode.string? j "template") with
      | some name => do
        let tv ← template name
        render (RenderM.createEmbeddedViewWith scope cid tv position)
      | none => render (RenderM.createEmbeddedView scope cid position)
    pure (Json.nat w.idx)
  | "removeEmbeddedView" =>
    let cid ← containerAt j
    let position ← need (Decode.count j "at")
    render (RenderM.removeEmbeddedView cid position)
    pure .null
  | "clearContainer" =>
    render (RenderM.clearContainer (← containerAt j))
    pure .null
  | "createContainerRef" =>
    let v ← viewAt j "view"
    let slot ← need (Decode.count j "slot")
    return Json.nat (← render (RenderM.createContainerRefIn v slot)).idx
  | "containerViews" =>
    let cid ← containerAt j
    let c ← render (RenderM.container cid)
    pure (Json.object [("container", Json.nat cid.idx), ("views", .arr (c.views.map (Json.nat ·.idx)))])
  | "pending" =>
    let v ← viewAt j "view"
    let slot ← need (Decode.count j "slot")
    return Json.nat ((← get).ctx.pool.pending { view := v, slot := slot })
  | "tview" =>
    let tv ← template (← need (Decode.string j "template"))
    return (← render (RenderM.tview tv)).toJson
  | "lview" =>
    let v ← viewAt j "view"
    return LView.toJson v (← render (RenderM.lview v))
  | "native" =>
    let v ← viewAt j "view"
    let slot ← need (Decode.count j "slot")
    let lv ← render (RenderM.lview v)
    pure (Json.opt (Json.nat ·.idx) (lv.native? slot))
  | "findExistingNode" =>
    let v ← viewAt j "view"
    let path ← need (Decode.string j "path")
    let lv ← render (RenderM.lview v)
    match findExistingNode (← get).ctx.doc lv path with
    | .ok n => pure (Json.nat n.idx)
    | .error e => throw (.render (.hydration e))
  | "claimed" =>
    let n ← nodeAt j "node"
    return .bool ((← get).ctx.claims.isClaimed n)
  | "node" =>
    let n ← nodeAt j "node"
    return (← get).ctx.doc.nodeJson n
  | "html" =>
    let n ← nodeAt j "node"
    return (← get).ctx.doc.htmlJson n
  | "pathBetween" =>
    let a ← nodeAt j "from"
    let b ← nodeAt j "to"
    let anchor := match ← need (Decode.count? j "slot") with
      | some i => PathAnchor.slot i
      | none => .host
    return Json.opt (fun p => .str p.render) (NodePath.between (← get).ctx.doc anchor a b)
  | "walk" =>
    let a ← nodeAt j "from"
    let path ← need (Decode.string j "path")
    let doc := (← get).ctx.doc
    match (do (← NodePath.parse path).walk doc a : Except HydrationError NodeId) with
    | .ok n => pure (Json.nat n.idx)
    | .error e => throw (.render (.hydration e))
  | "siblingAfter" =>
    let n ← nodeAt j "node"
    let count ← need (Decode.count j "count")
    return Json.opt (Json.nat ·.idx) ((← get).ctx.doc.siblingAfter? count n)
  | "createElement" => createFrom j Document.createElement
  | "createText" => createFrom j Document.createText
  | "createComment" => createFrom j Document.createComment
  | "name" =>
    let n ← nodeAt j "node"
    setName (← need (Decode.string j "as")) n
    pure (Json.nat n.idx)
  | "setAttribute" =>
    let n ← nodeAt j "node"
    let name ← need (Decode.string j "name")
    let value ← need (Decode.string j "value")
    editDoc (·.setAttribute n name value)
    pure .null
  | "removeAttribute" =>
    let n ← nodeAt j "node"
    let name ← need (Decode.string j "name")
    editDoc (·.removeAttribute n name)
    pure .null
  | "attribute" =>
    let n ← nodeAt j "node"
    let name ← need (Decode.string j "name")
    return Json.opt .str ((← get).ctx.doc.attribute? n name)
  | "setData" =>
    let n ← nodeAt j "node"
    let value ← need (Decode.string j "value")
    editDoc (·.setData n value)
    pure .null
  | "remove" =>
    let n ← nodeAt j "node"
    editDoc (·.detach n)
    pure .null
  | "clearChildren" =>
    let n ← nodeAt j "node"
    editDoc (·.clearChildren n)
    pure .null
  | "append" =>
    let p ← nodeAt j "parent"
    let c ← nodeAt j "child"
    editDoc (·.appendChild p c)
    pure .null
  | "insertBefore" =>
    let p ← nodeAt j "parent"
    let c ← nodeAt j "child"
    let ref ← match j.member? "ref" with
      | some r => some <$> node Decode.nestingBound r
      | none => pure none
    editDoc (·.insertBefore p c ref)
    pure .null
  | "exec" =>
    let s ← get
    let instrs ← need (Decode.block s.templateIds j "do")
    render (RenderM.runDetached s.scope instrs)
    pure .null
  | other => refuse (.unknownStep other)

/-- Runs a step with an empty event log, and answers its value or error, the events it logged
(when there are any) and the state after it. -/
def answerStep (s : Session) (j : Json) : Json × Session :=
  let s := { s with ctx := { s.ctx with events := #[] } }
  let (r, s) := ((step j).run).run s
  let result := match r with
    | .ok v => [("ok", v)]
    | .error e => match e.toJson with
      | .obj members => members.map fun m => (m.1.text, m.2)
      | j => [("error", j)]
  let log := s.ctx.events.toList.map Event.toJson
  let logPart := if log.isEmpty then [] else [("log", Json.arr log)]
  (Json.object (result ++ logPart ++ [("state", s.snapshot)]), s)

end Session

namespace Script

/-- Plays every step of a script from the start session, collecting the answers. -/
def play (script : Script) : Except RenderError (List Json) :=
  match script.config with
  | none => throw .config
  | some config =>
    let start := Session.start config script
    pure (script.steps.foldl (fun (acc : List Json × Session) step =>
      let (a, s) := acc.2.answerStep step
      (acc.1 ++ [a], s)) ([], start)).1

end Script

end ViewHydration
