import ViewHydration.Config
import ViewHydration.View.Registry
import ViewHydration.View.Frame
import ViewHydration.Hydration.Claims
import ViewHydration.Hydration.Pool

/-!
# Render contexts

A render context holds everything a render pass reads and writes: the document, the
configuration (fixed for the context's life), the arenas, the position stack, the claimed nodes,
the dehydrated views, the directive resolver, and the record of events observed while rendering.

Operations run in `RenderM`: a failure ends the operation, and every change made before it stays
in the context, as it does for a renderer that edits the document in place.
-/

namespace ViewHydration

/-- The node a directive is attached to, as the directive hooks see it. -/
structure DirectiveSite where
  doc : Document
  view : LViewId
  index : Nat
  tag : String
  node : NodeId

/-- The directives of the embedding framework. Matching, instantiation and content queries
belong to the framework: the runtime asks which flags a node gets when its template node is
registered, and calls back on every creation pass of a directive host. A hook may fail with any
render error, and the failure ends the instruction that called it. -/
structure DirectiveResolver where
  /-- The flags of a node with this tag and these static attributes; the runtime keeps only the
  directive-host and content-query flags. -/
  matchFlags : String → List (String × String) → TNodeFlags
  instantiate : DirectiveSite → Except RenderError Unit
  contentQueries : DirectiveSite → Except RenderError Unit := fun _ => .ok ()

/-- Something observed while rendering, in the order it happened. -/
inductive Event where
  /-- A `template` instruction declared a container. -/
  | template (container : ContainerId)
  /-- An instruction created an embedded view. -/
  | view (view : LViewId)
  /-- An embedded view was not created because the position stack was too deep. -/
  | depthLimit
  /-- The number of views of a container. -/
  | length (n : Nat)
  /-- An `<ng-container>` became a view container. -/
  | containerRef (container : ContainerId)
  /-- The node of a local reference. -/
  | localRef (node : Option NodeId)
  /-- The top frame of the position stack, and the stack depth. -/
  | probe (frame : Frame) (depth : Nat)
  /-- The resolver was asked to instantiate the directives of a node. -/
  | instantiate (view : LViewId) (index : Nat) (tag : String) (node : NodeId)
  /-- The resolver was asked to run the content queries of a node. -/
  | contentQueries (view : LViewId) (index : Nat)
  deriving Repr, Inhabited

/-- Everything a render pass reads and writes. -/
structure Context where
  doc : Document
  config : Config
  registry : Registry := {}
  /-- The position stack, top frame first. -/
  frames : List Frame := []
  claims : Claims := {}
  pool : Pool := {}
  directives : Option DirectiveResolver := none
  events : Array Event := #[]
  deriving Inhabited

/-- A render operation: it changes the context and may fail, keeping the changes made before the
failure. -/
abbrev RenderM := ExceptT RenderError (StateM Context)

namespace RenderM

/-- Fails with a structural error. -/
def structural {α : Type} (e : StructuralError) : RenderM α := throw (.structural e)

/-- Fails with a hydration error. -/
def hydration {α : Type} (e : HydrationError) : RenderM α := throw (.hydration e)

/-- Runs a check that may fail with a structural error. -/
def ofStructural {α : Type} : Except StructuralError α → RenderM α
  | .ok a => pure a
  | .error e => throw (.structural e)

/-- Runs a check that may fail with a hydration error. -/
def ofHydration {α : Type} : Except HydrationError α → RenderM α
  | .ok a => pure a
  | .error e => throw (.hydration e)

/-- Runs a check that may fail with an i18n error. -/
def ofI18n {α : Type} : Except I18nError α → RenderM α
  | .ok a => pure a
  | .error e => throw (.i18n e)

/-- Runs a check that may fail with any render error. -/
def ofExcept {α : Type} : Except RenderError α → RenderM α
  | .ok a => pure a
  | .error e => throw e

/-- Records an event. -/
def emit (e : Event) : RenderM Unit := modify fun c => { c with events := c.events.push e }

/-- Edits the document. -/
def modifyDoc (f : Document → Document) : RenderM Unit :=
  modify fun c => { c with doc := f c.doc }

/-- The top frame of the position stack. -/
def frame : RenderM Frame := do
  match (← get).frames with
  | f :: _ => pure f
  | [] => structural .noActiveView

/-- Edits the top frame of the position stack. -/
def modifyFrame (f : Frame → Frame) : RenderM Unit := do
  match (← get).frames with
  | top :: rest => modify fun c => { c with frames := f top :: rest }
  | [] => structural .noActiveView

/-- The template with a handle. -/
def tview (id : TViewId) : RenderM TView := do ofStructural ((← get).registry.tview id)

/-- Replaces a template. -/
def setTView (t : TView) : RenderM Unit :=
  modify fun c => { c with registry := c.registry.setTView t }

/-- The live view with a handle. -/
def lview (id : LViewId) : RenderM LView := do ofStructural ((← get).registry.lview id)

/-- Replaces a live view. -/
def setLView (id : LViewId) (v : LView) : RenderM Unit :=
  modify fun c => { c with registry := c.registry.setLView id v }

/-- Edits a live view. -/
def modifyLView (id : LViewId) (f : LView → LView) : RenderM Unit := do
  let v ← lview id
  setLView id (f v)

/-- A live view and its template. -/
def viewPair (id : LViewId) : RenderM (TView × LView) := do ofStructural ((← get).registry.viewPair id)

/-- The container with a handle. -/
def container (id : ContainerId) : RenderM LContainer := do
  ofStructural ((← get).registry.container id)

/-- Edits a container. -/
def modifyContainer (id : ContainerId) (f : LContainer → LContainer) : RenderM Unit := do
  let c ← container id
  modify fun ctx => { ctx with registry := ctx.registry.setContainer id (f c) }

end RenderM

namespace Context

/-- A fresh context over a document. -/
def create (doc : Document) (config : Config) (directives : Option DirectiveResolver) : Context :=
  { doc := doc, config := config, directives := directives }

/-- Whether the context locates nodes in server markup. -/
def isHydrating (c : Context) : Bool := c.config.hydration

/-- Depth of the position stack. -/
def depth (c : Context) : Nat := c.frames.length

/-- The flags the directive resolver gives a node with this tag and these static attributes,
kept to the directive-host and content-query flags; none without a resolver. -/
def directiveFlags (c : Context) (tag : String) (attrs : List (String × String)) : TNodeFlags :=
  ⟨(c.directives.elim 0 fun r => (r.matchFlags tag attrs).bits) &&& 3⟩

end Context

end ViewHydration
