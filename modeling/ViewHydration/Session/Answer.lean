import ViewHydration.Session.Play

/-!
# Answering requests

Every request line gets one answer line: `{"ok": value}` on success, otherwise an error object
with the error's kind and, when it has one, its message. A line that is not a request gets a
request error.

## Main definitions

- `Request.answer` — the answer of a request
- `answerLine` — the answer text for one request line
-/

namespace ViewHydration

namespace Request

/-- The answer of a request that runs a render-free operation. -/
def reply {α : Type} (r : Except RenderError α) (f : α → Json) : Json := answerOf f r

/-- The answer of a request. -/
def answer : Request → Json
  | .parseMessage m => reply (ViewHydration.parseMessage m |>.mapError .i18n) fun ps => .arr (ps.map MessagePart.toJson)
  | .planBlock m root =>
    match ViewHydration.parseMessage m, root with
    | .error e, _ => (RenderError.i18n e).toJson
    | .ok _, .error e => requestError e.message
    | .ok parts, .ok root =>
      reply (ViewHydration.planBlock parts root |>.mapError .i18n) fun ns => .arr (ns.map PlannedNode.toJson)
  | .planAttribute m =>
    reply (ViewHydration.planAttribute m |>.mapError .i18n) fun ps =>
      Json.object [("parts", .arr (ps.map I18nPart.toJson)), ("mask", Json.nat (bindingMask ps).toNat),
        ("static", Json.opt .str (staticText ps))]
  | .expressionBit n => okAnswer (Json.nat (ViewHydration.expressionBit n).toNat)
  | .translationForTemplate m sub => reply (ViewHydration.translationForTemplate m sub |>.mapError .i18n) .str
  | .removeInnerTemplateTranslation m => okAnswer (.str (Message.removeInnerTemplates m))
  | .splitBlock cooked raw =>
    reply (ViewHydration.splitBlock cooked raw |>.mapError .i18n) fun (text, block) =>
      Json.object [("text", .str text), ("block", Json.opt .str block)]
  | .findEndOfBlock cooked raw => reply (ViewHydration.findEndOfBlock cooked raw |>.mapError .i18n) Json.nat
  | .parseMetadata cooked raw => reply (ViewHydration.parseMetadata cooked raw |>.mapError .i18n) MessageMetadata.toJson
  | .parsePlaceholder cooked raw =>
    reply (parsePlaceholderBlock cooked raw |>.mapError .i18n) PlaceholderBlock.toJson
  | .localizedMetadata m => reply (m.metadata |>.mapError .i18n) MessageMetadata.toJson
  | .localizedMessage m => reply (m.toRuntimeMessage |>.mapError .i18n) .str
  | .parsePath p => reply (NodePath.parse p |>.mapError .hydration) NodePath.toJson
  | .record text =>
    match ViewRecord.read? text with
    | some r => okAnswer (.str r.render)
    | none => (RenderError.hydration .malformed).toJson
  | .config text =>
    match Config.read? text with
    | some c => okAnswer c.toJson
    | none => RenderError.config.toJson
  | .script s => reply s.play Json.arr

end Request

/-- The answer text for one request line. -/
def answerLine (line : String) : String :=
  match Request.read line with
  | .ok r => r.answer.render
  | .error e => (requestError e.message).render

end ViewHydration
