import ViewHydration.Render.Mount
import ViewHydration.Hydration.Serialize
import ViewHydration.Dom.Markup
import ViewHydration.Json.Writer

/-!
# Reports

The JSON form of everything a session answers with: errors, message parts and plans, metadata,
paths, configurations, the dumps of templates, live views and document nodes, and the events of
a render. Handles are written as their numbers; flags as their raw bits; absent values as `null`.
-/

namespace ViewHydration

namespace RenderError

/-- An error answer: its kind, and its message when it has one. -/
def toJson (e : RenderError) : Json :=
  Json.object ([("error", .str e.kind)] ++
    match e.message? with
    | some m => [("message", .str m)]
    | none => [])

end RenderError

/-- An error answer of the session itself, for a request it cannot carry out. -/
def requestError (message : String) : Json :=
  Json.object [("error", .str "DriverError"), ("message", .str message)]

/-- A success answer. -/
def okAnswer (v : Json) : Json := Json.object [("ok", v)]

/-- The answer of a result. -/
def answerOf {α : Type} (f : α → Json) : Except RenderError α → Json
  | .ok a => okAnswer (f a)
  | .error e => e.toJson

namespace MessagePart

/-- JSON form of a message part. -/
def toJson : MessagePart → Json
  | .text s => Json.object [("text", .str s)]
  | .expression n => Json.object [("exp", Json.nat n)]
  | .elementStart n => Json.object [("elementStart", Json.nat n)]
  | .elementEnd n => Json.object [("elementEnd", Json.nat n)]
  | .voidElement n => Json.object [("void", Json.nat n)]
  | .templateStart n => Json.object [("templateStart", Json.nat n)]
  | .templateEnd n => Json.object [("templateEnd", Json.nat n)]

end MessagePart

namespace I18nPart

/-- JSON form of a text run piece. -/
def toJson : I18nPart → Json
  | .literal s => Json.object [("lit", .str s)]
  | .binding n => Json.object [("bind", Json.nat n)]

end I18nPart

namespace PlannedNode

/-- JSON form of a planned block node. -/
def toJson : PlannedNode → Json
  | .text parent parts => Json.object [("kind", .str "Text"), ("parent", Json.opt Json.nat parent),
      ("parts", .arr (parts.map I18nPart.toJson))]
  | .element index parent => Json.object [("kind", .str "Element"), ("index", Json.nat index),
      ("parent", Json.opt Json.nat parent)]
  | .template index parent => Json.object [("kind", .str "Template"), ("index", Json.nat index),
      ("parent", Json.opt Json.nat parent)]

end PlannedNode

namespace MessageMetadata

/-- JSON form of message metadata. -/
def toJson (m : MessageMetadata) : Json :=
  Json.object [("text", .str m.text), ("meaning", Json.opt .str m.meaning),
    ("description", Json.opt .str m.description), ("customId", Json.opt .str m.customId),
    ("legacyIds", .arr (m.legacyIds.map .str))]

end MessageMetadata

namespace PlaceholderBlock

/-- JSON form of a placeholder block. -/
def toJson (b : PlaceholderBlock) : Json :=
  Json.object [("text", .str b.text), ("name", Json.opt .str b.name),
    ("associatedId", Json.opt .str b.associatedId)]

end PlaceholderBlock

namespace NodePath

/-- JSON form of a path: its anchor, its steps, and its printed form. -/
def toJson (p : NodePath) : Json :=
  Json.object [
    ("anchor", match p.anchor with
      | .host => .str "host"
      | .slot n => Json.nat n),
    ("steps", .arr (p.steps.map fun s => .str s.name)),
    ("display", .str p.render)]

end NodePath

namespace Config

/-- JSON form of a configuration. -/
def toJson (c : Config) : Json :=
  Json.object [("hydration", .bool c.hydration), ("nghAttribute", .str c.nghAttribute),
    ("skipHydrationAttribute", .str c.skipHydrationAttribute),
    ("cleanupOnStable", .bool c.cleanupOnStable)]

end Config

namespace TNode

/-- JSON form of a template node. -/
def toJson (n : TNode) : Json :=
  Json.object [("type", .str n.type.name), ("index", Json.nat n.index),
    ("parent", Json.opt Json.nat n.parent), ("child", Json.opt Json.nat n.child),
    ("next", Json.opt Json.nat n.next), ("flags", Json.nat n.flags.bits),
    ("tag", Json.opt .str n.tag), ("value", Json.opt .str n.value), ("attrs", Json.pairs n.attrs),
    ("localNames", .arr (n.localNames.map .str)), ("tview", Json.opt (Json.nat ·.idx) n.tview)]

end TNode

namespace I18nUpdateOp

/-- JSON form of an update operation. -/
def toJson (op : I18nUpdateOp) : Json :=
  Json.object [
    ("target", match op.target with
      | .text slot => Json.object [("text", Json.nat slot)]
      | .attribute element name => Json.object [("element", Json.nat element), ("attr", .str name)]),
    ("parts", .arr (op.parts.map I18nPart.toJson)),
    ("mask", Json.nat op.mask.toNat)]

end I18nUpdateOp

namespace TData

/-- JSON form of a template data entry. -/
def toJson : TData → Json
  | .empty => .null
  | .node n => Json.object [("node", n.toJson)]
  | .i18n b => Json.object [("i18n", Json.object [
      ("nodes", .arr (b.nodes.map fun n => Json.object [("kind", .str n.kind.name),
        ("index", Json.nat n.index), ("parent", Json.opt Json.nat n.parent)])),
      ("update", .arr (b.update.map I18nUpdateOp.toJson))])]
  | .i18nAttributes b => Json.object [("i18nAttributes", Json.object [
      ("element", Json.nat b.element), ("statics", Json.pairs b.statics),
      ("update", .arr (b.update.map I18nUpdateOp.toJson))])]

end TData

namespace TView

/-- JSON form of a template. -/
def toJson (t : TView) : Json :=
  Json.object [("id", Json.nat t.id.idx), ("kind", .str t.kind.name), ("ssrId", Json.opt .str t.ssrId),
    ("decls", Json.nat t.decls), ("vars", Json.nat t.vars),
    ("bindingStartIndex", Json.nat t.bindingStartIndex), ("expandoStart", Json.nat t.expandoStart),
    ("firstCreatePass", .bool t.firstCreatePass), ("firstChild", Json.opt Json.nat t.firstChild),
    ("data", .arr (t.data.toList.map TData.toJson))]

end TView

namespace Slot

/-- JSON form of a live view slot. -/
def toJson : Slot → Json
  | .empty => .null
  | .node n => Json.object [("node", Json.nat n.idx)]
  | .container c anchor => Json.object [("container", Json.nat c.idx), ("anchor", Json.nat anchor.idx)]
  | .binding s => Json.object [("binding", .str s)]

end Slot

namespace LView

/-- JSON form of a live view with its handle. -/
def toJson (id : LViewId) (v : LView) : Json :=
  Json.object [("id", Json.nat id.idx), ("tview", Json.nat v.tview.idx), ("flags", Json.nat v.flags.bits),
    ("parent", Json.opt (Json.nat ·.idx) v.parent), ("host", Json.opt (Json.nat ·.idx) v.host),
    ("insertBefore", Json.opt (Json.nat ·.idx) v.insertBefore),
    ("hydration", Json.opt (fun h => Json.object [("firstChild", Json.opt (Json.nat ·.idx) h.firstChild),
      ("record", h.record.toJson)]) v.hydration),
    ("data", .arr (v.data.toList.map Slot.toJson))]

end LView

namespace Frame

/-- JSON form of a frame as a probe sees it, with the depth of the position stack. -/
def toJson (f : Frame) (depth : Nat) : Json :=
  Json.object [("view", Json.nat f.lview.idx), ("tview", Json.nat f.tview.idx),
    ("current", Json.opt Json.nat f.current), ("isParent", .bool f.isParent),
    ("bindingIndex", Json.nat f.bindingIndex), ("elementDepth", Json.nat f.elementDepth),
    ("skipHydrationRoot", Json.opt Json.nat f.skipHydrationRoot),
    ("i18n", Json.opt (fun b => Json.object [("index", Json.nat b.index),
      ("parent", Json.opt Json.nat b.parent), ("located", Json.nat b.located),
      ("elements", .arr (b.elements.map Json.nat))]) f.i18n),
    ("expMask", Json.nat f.expMask.toNat), ("expShift", Json.nat f.expShift), ("depth", Json.nat depth)]

end Frame

namespace Event

/-- JSON form of a render event. -/
def toJson : Event → Json
  | .template c => Json.object [("template", Json.nat c.idx)]
  | .view v => Json.object [("view", Json.nat v.idx)]
  | .depthLimit => Json.object [("view", .str "depth-limit")]
  | .length n => Json.object [("length", Json.nat n)]
  | .containerRef c => Json.object [("containerRef", Json.nat c.idx)]
  | .localRef n => Json.object [("localRef", Json.opt (Json.nat ·.idx) n)]
  | .probe f depth => Json.object [("probe", f.toJson depth)]
  | .instantiate v i tag n => Json.object [("instantiate", Json.object [
      ("view", Json.nat v.idx), ("index", Json.nat i), ("tag", .str tag), ("node", Json.nat n.idx)])]
  | .contentQueries v i => Json.object [("contentQueries", Json.object [
      ("view", Json.nat v.idx), ("index", Json.nat i)])]

end Event

namespace Document

/-- JSON form of a document node with its links and children. -/
def nodeJson (d : Document) (id : NodeId) : Json :=
  let link (o : Option NodeId) : Json := Json.opt (Json.nat ·.idx) o
  Json.object [("id", Json.nat id.idx),
    ("kind", Json.opt (fun k => .str k.name) (d.kind? id)),
    ("tag", Json.opt .str (d.tagName? id)), ("data", Json.opt .str (d.data? id)),
    ("attrs", Json.pairs (d.attributes id)), ("parent", link (d.parent? id)),
    ("firstChild", link (d.firstChild? id)), ("lastChild", link (d.lastChild? id)),
    ("prev", link (d.prevSibling? id)), ("next", link (d.nextSibling? id)),
    ("children", .arr ((d.children id).map (Json.nat ·.idx)))]

/-- The markup of a node: with itself, of its children, and its text. -/
def htmlJson (d : Document) (id : NodeId) : Json :=
  Json.object [("outer", .str (d.outerHtml id)), ("inner", .str (d.innerHtml id)),
    ("text", .str (d.textContent id))]

end Document

end ViewHydration
