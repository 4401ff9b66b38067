import ViewHydration.Dom.Document
import ViewHydration.Handle
import ViewHydration.Hydration.Record

/-!
# Dehydrated views

A server-rendered embedded view that no live view has claimed yet is dehydrated: it has its first
document node and its record. The pool keeps the dehydrated views of each container, keyed by
the owning view and the container's slot and ordered by that key.

Creating an embedded view takes the first dehydrated view of its container when the templates
match; on a mismatch the container's dehydrated views are all dropped and their nodes removed
from the document. Destroying a view drops the dehydrated views of its containers, and cleaning
up drops everything. Removing a dehydrated view's nodes detaches up to `numRootNodes` nodes,
following next siblings from its first node.
-/

namespace ViewHydration

/-- A server-rendered embedded view not yet matched to a live view. -/
structure DehydratedView where
  firstChild : Option NodeId
  record : ViewRecord
  deriving Repr, Inhabited

namespace DehydratedView

/-- Template id of the view. -/
def template? (d : DehydratedView) : Option String := d.record.template

/-- Number of document nodes at the view's root. -/
def numRootNodes (d : DehydratedView) : Nat := d.record.numRootNodes.getD 0

/-- The view's root nodes: at most `numRootNodes` of them, from its first node on. -/
def rootNodes (d : DehydratedView) (doc : Document) : List NodeId :=
  collect d.numRootNodes d.firstChild
where
  /-- Collects up to `k` nodes following next siblings. -/
  collect : Nat → Option NodeId → List NodeId
    | 0, _ => []
    | _, none => []
    | k + 1, some n => n :: collect k (doc.nextSibling? n)

/-- Detaches the view's root nodes. -/
def removeNodes (d : DehydratedView) (doc : Document) : Document :=
  (d.rootNodes doc).foldl Document.detach doc

end DehydratedView

/-- Key of a container in the pool: the owning view and the container's slot. -/
structure PoolKey where
  view : LViewId
  slot : Nat
  deriving DecidableEq, Repr, Inhabited

namespace PoolKey

/-- Keys are ordered by view, then by slot. -/
def lt (a b : PoolKey) : Bool := a.view.idx < b.view.idx || (a.view == b.view && a.slot < b.slot)

end PoolKey

/-- The dehydrated views of every container, ordered by key. -/
structure Pool where
  entries : List (PoolKey × List DehydratedView) := []
  deriving Repr, Inhabited

namespace Pool

/-- Stores a container's dehydrated views, replacing earlier ones; an empty list is not
stored. -/
def insert (p : Pool) (key : PoolKey) (views : List DehydratedView) : Pool :=
  if views.isEmpty then p
  else { entries := place p.entries }
where
  /-- Puts the entry at its place in key order. -/
  place : List (PoolKey × List DehydratedView) → List (PoolKey × List DehydratedView)
    | [] => [(key, views)]
    | e :: rest =>
      if e.1 == key then (key, views) :: rest
      else if key.lt e.1 then (key, views) :: e :: rest
      else e :: place rest

/-- The dehydrated views of a container. -/
def get (p : Pool) (key : PoolKey) : List DehydratedView := (p.entries.lookup key).getD []

/-- Removes a container's entry. -/
def erase (p : Pool) (key : PoolKey) : Pool := { entries := p.entries.filter (·.1 != key) }

/-- Number of dehydrated views in the pool. -/
def size (p : Pool) : Nat := p.entries.foldl (fun n e => n + e.2.length) 0

/-- Number of dehydrated views of one container. -/
def pending (p : Pool) (key : PoolKey) : Nat := (p.get key).length

/-- Takes the container's first dehydrated view if its template is `template`; otherwise drops
all of the container's dehydrated views and removes their nodes. -/
def takeMatching (p : Pool) (doc : Document) (key : PoolKey) (template : Option String) :
    Pool × Document × Option DehydratedView :=
  match p.entries.lookup key with
  | none => (p, doc, none)
  | some views =>
    match views with
    | first :: rest =>
      if template.isSome && first.template? == template then
        let p := if rest.isEmpty then p.erase key else { entries := p.entries.map fun e =>
          if e.1 == key then (key, rest) else e }
        (p, doc, some first)
      else (p.erase key, views.foldl (fun d v => v.removeNodes d) doc, none)
    | [] => (p.erase key, doc, none)

/-- Drops the dehydrated views of every container of a view, removing their nodes. -/
def removeForView (p : Pool) (doc : Document) (view : LViewId) : Pool × Document :=
  let (mine, others) := p.entries.partition (·.1.view == view)
  ({ entries := others },
    mine.foldl (fun d e => e.2.foldl (fun d v => v.removeNodes d) d) doc)

/-- Drops every dehydrated view, removing their nodes. -/
def cleanup (p : Pool) (doc : Document) : Pool × Document :=
  ({}, p.entries.foldl (fun d e => e.2.foldl (fun d v => v.removeNodes d) d) doc)

end Pool

end ViewHydration
