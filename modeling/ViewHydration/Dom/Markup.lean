import ViewHydration.Dom.Document

/-!
# Markup of a document

The markup of a node is its HTML text: a text node is its data with `&`, `<` and `>` escaped, a
comment is `<!--data-->`, and an element is its start tag with its attributes in order (values
with `&` and `"` escaped), the markup of its children, and its end tag. Every element gets an
end tag; there are no void elements.

The walks are bounded by the arena size: in a document whose parent links have no cycle a
node's depth is below the number of nodes.
-/

namespace ViewHydration

namespace Markup

/-- Escapes character data: `&`, `<` and `>` become entities. -/
def escapeText (s : String) : String :=
  s.foldl (fun acc c =>
    match c with
    | '&' => acc ++ "&amp;"
    | '<' => acc ++ "&lt;"
    | '>' => acc ++ "&gt;"
    | c => acc.push c) ""

/-- Escapes an attribute value: `&` and `"` become entities. -/
def escapeAttribute (s : String) : String :=
  s.foldl (fun acc c =>
    match c with
    | '&' => acc ++ "&amp;"
    | '"' => acc ++ "&quot;"
    | c => acc.push c) ""

/-- The start tag's attribute list, each entry preceded by a blank. -/
def attributeText (attrs : List (String × String)) : String :=
  String.join (attrs.map fun kv => " " ++ kv.1 ++ "=\"" ++ escapeAttribute kv.2 ++ "\"")

end Markup

namespace Document

/-- Markup of a node including itself, descending at most `fuel` levels. -/
def markupAt (d : Document) : Nat → NodeId → String
  | 0, _ => ""
  | fuel + 1, id =>
    match d.get? id with
    | none => ""
    | some n =>
      match n.kind with
      | .text => Markup.escapeText n.data
      | .comment => "<!--" ++ n.data ++ "-->"
      | .element =>
        "<" ++ n.name ++ Markup.attributeText n.attrs ++ ">" ++
          String.join ((d.children id).map (d.markupAt fuel)) ++ "</" ++ n.name ++ ">"

/-- Text of all descendant text nodes, descending at most `fuel` levels. -/
def textAt (d : Document) : Nat → NodeId → String
  | 0, _ => ""
  | fuel + 1, id =>
    match d.get? id with
    | none => ""
    | some n =>
      match n.kind with
      | .text => n.data
      | .comment => ""
      | .element => String.join ((d.children id).map (d.textAt fuel))

/-- Markup of a node including itself. -/
def outerHtml (d : Document) (id : NodeId) : String := d.markupAt (d.size + 1) id

/-- Markup of a node's children. -/
def innerHtml (d : Document) (id : NodeId) : String :=
  String.join ((d.children id).map (d.markupAt d.size))

/-- Concatenated data of the text nodes below a node; comments contribute nothing. -/
def textContent (d : Document) (id : NodeId) : String := d.textAt (d.size + 1) id

end Document

end ViewHydration
