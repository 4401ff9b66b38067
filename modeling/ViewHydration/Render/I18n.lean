import ViewHydration.Render.Element
import ViewHydration.I18n.SubTemplate

/-!
# Translated blocks

`i18nStart` opens a block whose message decides the block's nodes. On the template's first pass
the message is compiled: its text runs become text nodes in new expando slots (a run with
expressions gets an update operation), and its element and template placeholders name nodes
that the template declares inside the block. Every pass materialises the block's text nodes
without inserting them.

`i18nEnd` closes the block. On the first pass, elements opened inside the block that the message
does not mention are marked detached; detached elements are removed from the document. Then every
node of the block that was not claimed from server markup is put at its place in message order.

`i18nExp` reads one expression of a block and marks it changed in the frame's mask; `i18nApply`
reruns the update operations of a block (or of a translated attribute list) that read a changed
expression, and clears the mask.
-/

namespace ViewHydration

namespace RenderM

/-- Compiles the block of a message: allocates expando slots for its text runs and registers
their template nodes. -/
def compileBlock (tv : TViewId) (messageIndex : Nat) (sub : Option Nat) (root : Option Nat) :
    RenderM I18nBlock := do
  let t ← tview tv
  let message ← match ← ofStructural (t.constAt messageIndex) with
    | .message m => pure m
    | .localized l => ofI18n l.toRuntimeMessage
    | _ => structural (.constMismatch messageIndex .i18nMessage)
  let message ← ofI18n (translationForTemplate message sub)
  let parts ← ofI18n (parseMessage message)
  let planned ← ofI18n (planBlock parts root)
  let (t, block) := planned.foldl (fun (acc : TView × I18nBlock) node =>
    let (t, b) := acc
    match node with
    | .text parent parts =>
      let (t, slot) := t.allocateExpando
      let value := staticText parts
      let n : TNode := { type := .text, index := slot, parent := parent, flags := .inI18n, value := value }
      let update := if value.isNone then b.update ++ [{ target := .text slot, mask := bindingMask parts, parts := parts }]
        else b.update
      (t.setData slot (.node n), { nodes := b.nodes ++ [⟨.text, slot, parent⟩], update := update })
    | .element index parent => (t, { b with nodes := b.nodes ++ [⟨.element, index, parent⟩] })
    | .template index parent => (t, { b with nodes := b.nodes ++ [⟨.template, index, parent⟩] }))
    (t, {})
  setTView t
  pure block

/-- The compiled block at a slot. -/
def blockAt (t : TView) (index : Nat) : RenderM I18nBlock :=
  match t.data[index]? with
  | some (.i18n b) => pure b
  | _ => structural (.emptySlot index)

/-- Opens a translated block. -/
def i18nStart (index messageIndex : Nat) (sub : Option Nat) : RenderM Unit := do
  let (view, tv) ← active
  checkCreationSlot index
  let f ← frame
  if f.i18n.isSome then structural (.nestedI18nBlock index)
  let t ← tview tv
  let root := f.parentForNext ((f.current.bind t.tnode?).bind (·.parent))
  let compiled := match t.data[index]? with
    | some (.i18n _) => true
    | _ => false
  if t.firstCreatePass && !compiled then
    let block ← compileBlock tv messageIndex sub root
    setTView ((← tview tv).setData index (.i18n block))
  let t ← tview tv
  let block ← blockAt t index
  let texts := (block.nodes.filter (·.kind == .text)).map fun n =>
    (n.index, ((t.tnode? n.index).bind (·.value)).getD "")
  let located ← texts.foldlM (fun located (slot, value) => do
    let (node, created) ← materialize slot (.text value)
    modifyLView view (·.set slot (.node node))
    pure (if created then located else located + 1)) 0
  modifyFrame fun f => { f with i18n := some { index := index, parent := root, located := located } }

/-- Closes the open translated block. -/
def i18nEnd : RenderM Unit := do
  let (view, tv) ← active
  let some bf := (← frame).i18n | structural (.unbalancedEnd .i18nEnd)
  modifyFrame fun f => { f with i18n := none }
  let t ← tview tv
  let block ← blockAt t bf.index
  if t.firstCreatePass then
    setTView (bf.elements.foldl (fun t e =>
      if block.nodes.any (·.index == e) then t
      else t.modifyTNode e fun n => { n with flags := n.flags.union .detached }) t)
  let (t, v) ← viewPair view
  for e in bf.elements do
    if ((t.tnode? e).map (·.has .detached)).getD false then
      if let some native := v.native? e then modifyDoc (·.detach native)
  for node in block.nodes do
    if let some native := v.native? node.index then
      if !(← get).claims.isClaimed native then
        let (parent, before) ← ofStructural (insertionPoint (← get).doc t v node.parent node.index)
        modifyDoc (·.insertBefore parent native before)

/-- Compiles (on the first pass) and applies the translated attributes of the current element. -/
def i18nAttributes (index attrsIndex : Nat) : RenderM Unit := do
  let (view, tv) ← active
  checkCreationSlot index
  let some element := (← frame).current | structural (.emptySlot index)
  let t ← tview tv
  if t.firstCreatePass then
    let pairs ← match ← ofStructural (t.constAt attrsIndex) with
      | .i18nAttrs pairs => pure pairs
      | _ => structural (.constMismatch attrsIndex .i18nAttributeList)
    let compiled ← pairs.foldlM (fun (acc : I18nAttributesBlock) (name, message) => do
      let parts ← ofI18n (planAttribute message)
      match staticText parts with
      | some s => pure { acc with statics := acc.statics ++ [(name, s)] }
      | none =>
        pure { acc with update := acc.update ++
          [{ target := .attribute element name, mask := bindingMask parts, parts := parts }] })
      { element := element }
    setTView (t.setData index (.i18nAttributes compiled))
  let (t, v) ← viewPair view
  let some (.i18nAttributes compiled) := t.data[index]? | structural (.emptySlot index)
  let some native := v.native? compiled.element | hydration (.missingNode compiled.element)
  modifyDoc fun d => compiled.statics.foldl (fun d kv => d.setAttribute native kv.1 kv.2) d

/-- Reads one expression of a block, marking it in the change mask when it changed. -/
def i18nExp (value : String) : RenderM Unit := do
  let changed ← bindingUpdated value
  modifyFrame fun f =>
    { f with expMask := if changed then f.expMask ||| expressionBit f.expShift else f.expMask,
             expShift := f.expShift + 1 }

/-- Reruns the update operations of a block that read a changed expression. -/
def i18nApply (index : Nat) : RenderM Unit := do
  let (view, tv) ← active
  let f ← frame
  modifyFrame fun f => { f with expMask := 0, expShift := 0 }
  if f.expMask != 0 then
    let t ← tview tv
    let ops ← match t.data[index]? with
      | some (.i18n b) => pure b.update
      | some (.i18nAttributes b) => pure b.update
      | _ => structural (.emptySlot index)
    let v ← lview view
    let first := f.bindingIndex - f.expShift
    let bindings := (List.range (f.bindingIndex - first)).map fun k =>
      match v.slot (first + k) with
      | .binding s => s
      | _ => ""
    for op in ops do
      if op.mask &&& f.expMask != 0 then
        let value := renderParts op.parts bindings
        match op.target with
        | .text slot =>
          let some node := v.native? slot | hydration (.missingNode slot)
          modifyDoc (·.setData node value)
        | .attribute element name =>
          let some node := v.native? element | hydration (.missingNode element)
          modifyDoc (·.setAttribute node name value)

end RenderM

end ViewHydration
