import ViewHydration.Json.Reader
import ViewHydration.Json.Writer
import ViewHydration.Json.Decode

/-!
# Hydration records

A hydration record (the `ngh` attribute of a host) tells how the server rendered one view:

* `nodes`: slots whose node cannot be inferred from the node before it, with the path to it;
* `containers`: for each view container or `<ng-container>` slot, the number of nodes of its own
  content and the records of the embedded views it held, in order;
* `disconnected`: slots whose nodes were not attached to the document;
* `template` and `numRootNodes`: for an embedded view, its template and how many nodes it
  contributes at its root.

Maps are kept sorted by slot. The record text is canonical: fields in the order above, empty maps
and lists and absent values left out, map keys in numeric order; a container always writes its
`numRootNodes`, and its `views` only when there are some. The reader follows the record rules of
`Json.fields`, so every field may be missing.
-/

namespace ViewHydration

/-- The record of a view container: its own content size and its embedded views. -/
structure ContainerRecord (V : Type) where
  numRootNodes : Nat := 0
  views : List V := []
  deriving DecidableEq, Repr, Inhabited

/-- The hydration record of one view. -/
structure ViewRecord where
  nodes : List (Nat × String) := []
  containers : List (Nat × ContainerRecord ViewRecord) := []
  disconnected : List Nat := []
  template : Option String := none
  numRootNodes : Option Nat := none
  deriving Repr, Inhabited

namespace ViewRecord

/-- The recorded path of a slot. -/
def path? (r : ViewRecord) (slot : Nat) : Option String := r.nodes.lookup slot

/-- The container record of a slot. -/
def container? (r : ViewRecord) (slot : Nat) : Option (ContainerRecord ViewRecord) :=
  r.containers.lookup slot

/-- Whether the slot's node was not attached on the server. -/
def isDisconnected (r : ViewRecord) (slot : Nat) : Bool := r.disconnected.contains slot

mutual

/-- The record as a JSON value in canonical form. -/
def toJson : ViewRecord → Json
  | ⟨nodes, containers, disconnected, template, numRootNodes⟩ =>
    Json.object (
      (if nodes.isEmpty then []
        else [("nodes", Json.object (nodes.map fun kv => (toString kv.1, Json.str kv.2)))]) ++
      (if containers.isEmpty then [] else [("containers", Json.object (containersJson containers))]) ++
      (if disconnected.isEmpty then [] else [("disconnected", .arr (disconnected.map Json.nat))]) ++
      (match template with
        | some t => [("template", Json.str t)]
        | none => []) ++
      (match numRootNodes with
        | some n => [("numRootNodes", Json.nat n)]
        | none => []))

/-- The members of a `containers` map. -/
def containersJson : List (Nat × ContainerRecord ViewRecord) → List (String × Json)
  | [] => []
  | (k, c) :: rest => (toString k, containerJson c) :: containersJson rest

/-- A container record as a JSON value. -/
def containerJson : ContainerRecord ViewRecord → Json
  | ⟨n, views⟩ =>
    Json.object ([("numRootNodes", Json.nat n)] ++
      (if views.isEmpty then [] else [("views", .arr (viewsJson views))]))

/-- A list of view records as JSON values. -/
def viewsJson : List ViewRecord → List Json
  | [] => []
  | v :: rest => toJson v :: viewsJson rest

end

/-- Canonical record text. -/
def render (r : ViewRecord) : String := (toJson r).render

/-- Reads a map with count keys, later keys replacing earlier equal ones. -/
def readMap {α : Type} (read : Json → Option α) : Json → Option (List (Nat × α))
  | .obj members =>
    members.foldlM (fun acc m => do
      let k ← Json.countKey? m.1
      let v ← read m.2
      pure (Json.insertSorted k v acc)) []
  | _ => none

/-- Reads an optional value: `null` is absent. -/
def readOptional {α : Type} (read : Json → Option α) : Json → Option (Option α)
  | .null => some none
  | j => (read j).map some

/-- Reads a nested map or list: it takes one more level of nesting, so it needs a level left. -/
def nested {α : Type} (budget : Nat) (read : Json → Option α) (j : Json) : Option α :=
  if budget = 0 then none else read j

/-- Reads a view record with `budget` levels of nesting left: the record itself, every map and
list inside it, and every record inside those take one level each. -/
def ofJsonAt : Nat → Json → Option ViewRecord
  | 0, _ => none
  | budget + 1, j => do
    let fs ← Json.fields ["nodes", "containers", "disconnected", "template", "numRootNodes"] j
    let nodes ← Json.fieldOr [] (nested budget (readMap Json.string?)) (fs.getD 0 none)
    let containers ← Json.fieldOr []
      (fun j => match budget with
        | 0 => none
        | b + 1 => readMap (containerOfJsonAt b) j) (fs.getD 1 none)
    let disconnected ← Json.fieldOr []
      (nested budget fun j => (Json.items? j).bind (·.mapM Json.count?)) (fs.getD 2 none)
    let template ← Json.fieldOr none (readOptional Json.string?) (fs.getD 3 none)
    let numRootNodes ← Json.fieldOr none (readOptional Json.count?) (fs.getD 4 none)
    pure ⟨nodes, containers, disconnected, template, numRootNodes⟩
where
  /-- Reads a container record with `budget` levels of nesting left. -/
  containerOfJsonAt : Nat → Json → Option (ContainerRecord ViewRecord)
    | 0, _ => none
    | budget + 1, j => do
      let fs ← Json.fields ["numRootNodes", "views"] j
      let n ← Json.fieldOr 0 Json.count? (fs.getD 0 none)
      let views ← Json.fieldOr []
        (fun j => match budget with
          | 0 => none
          | b + 1 => (Json.items? j).bind (·.mapM (ofJsonAt b))) (fs.getD 1 none)
      pure ⟨n, views⟩

/-- Reads a record from its text; `none` for text that is not a record. The record and the maps,
lists and records inside it nest at most `JsonReader.maxDepth` levels deep; values of unknown
fields are only checked for their grammar. -/
def read? (text : String) : Option ViewRecord :=
  (Json.parse? text).bind (ofJsonAt JsonReader.maxDepth)

end ViewRecord

end ViewHydration
