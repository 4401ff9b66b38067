import ViewHydration.Proofs.DocumentEdits

/-!
# Data and attribute writes

An update pass writes two kinds of place: the data of a node and one attribute of a node. A place
*holds* a value when a reader finds that value there: a text node or comment with that data, an
element with that attribute value. A place that no write can change (the data of an element, an
attribute of a text node, a node that is not there) holds every value. A write makes its own
place hold the written value and leaves every other place as a reader sees it.

## Main definitions

- `WritePlace` — the data of a node, or one attribute of a node
- `Document.write` — writes a value at a place
- `Document.Holds` — a place holds a value
- `Document.SameAt` — two documents look the same at a place
- `Document.writeAll` — a run of writes, in order
-/

namespace ViewHydration

/-- A place an update writes: the data of a node, or one named attribute of a node. -/
inductive WritePlace where
  | data (node : NodeId)
  | attr (node : NodeId) (name : String)
  deriving DecidableEq, Repr

namespace Document

/-- Writes a value at a place. -/
def write (d : Document) : WritePlace → String → Document
  | .data x, w => d.setData x w
  | .attr x name, w => d.setAttribute x name w

/-- A place holds `w`: the node has no data or has data `w`; the node is no element or its
attribute is `w`. -/
def Holds (d : Document) : WritePlace → String → Prop
  | .data x, w => d.data? x = none ∨ d.data? x = some w
  | .attr x name, w => d.tagName? x = none ∨ d.attribute? x name = some w

/-- Two documents look the same at a place: the same data, or the same tag and attribute. -/
def SameAt (d d' : Document) : WritePlace → Prop
  | .data x => d'.data? x = d.data? x
  | .attr x name => d'.tagName? x = d.tagName? x ∧ d'.attribute? x name = d.attribute? x name

theorem SameAt.refl (d : Document) (p : WritePlace) : d.SameAt d p := by
  cases p <;> simp [SameAt]

theorem SameAt.trans {d₁ d₂ d₃ : Document} {p : WritePlace} (h₁ : d₁.SameAt d₂ p)
    (h₂ : d₂.SameAt d₃ p) : d₁.SameAt d₃ p := by
  cases p with
  | data x => exact Eq.trans h₂ h₁
  | attr x name => exact ⟨h₂.1.trans h₁.1, h₂.2.trans h₁.2⟩

theorem SameAt.holds {d d' : Document} {p : WritePlace} {w : String} (h : d.SameAt d' p)
    (hd : d.Holds p w) : d'.Holds p w := by
  cases p with
  | data x =>
    simp only [SameAt] at h
    simpa only [Holds, h] using hd
  | attr x name =>
    simp only [SameAt] at h
    simpa only [Holds, h.1, h.2] using hd

/-! ### What a node edit shows a reader -/

section modify

variable {d : Document} {f : Node → Node}

theorem data?_modify_of_ne {x y : NodeId} (h : x ≠ y) : (d.modify x f).data? y = d.data? y := by
  simp only [data?, get?_modify, if_neg h]

theorem tagName?_modify_of_ne {x y : NodeId} (h : x ≠ y) : (d.modify x f).tagName? y = d.tagName? y := by
  simp only [tagName?, get?_modify, if_neg h]

theorem attribute?_modify_of_ne {x y : NodeId} (h : x ≠ y) (key : String) :
    (d.modify x f).attribute? y key = d.attribute? y key := by
  simp only [attribute?, get?_modify, if_neg h]

/-- An edit that keeps the kind and the name keeps the tag a reader sees. -/
theorem tagName?_modify_of (hk : ∀ n, (f n).kind = n.kind) (hn : ∀ n, (f n).name = n.name) (x y : NodeId) :
    (d.modify x f).tagName? y = d.tagName? y := by
  by_cases h : x = y
  · subst h
    simp only [tagName?, get?_modify]
    cases d.get? x <;> simp [Node.isElement, hk, hn]
  · exact tagName?_modify_of_ne h

end modify

/-! ### Data writes -/

section setData

variable {d : Document} {x y : NodeId} {w : String}

theorem data?_setData_self : (d.setData x w).data? x = (d.data? x).map fun _ => w := by
  simp only [setData, data?, get?_modify, if_pos]
  cases d.get? x with
  | none => rfl
  | some n => cases he : n.isElement <;> simp_all [Node.isElement]

theorem tagName?_setData : (d.setData x w).tagName? y = d.tagName? y :=
  tagName?_modify_of (fun n => by split <;> rfl) (fun n => by split <;> rfl) x y

theorem attribute?_setData (key : String) : (d.setData x w).attribute? y key = d.attribute? y key := by
  by_cases h : x = y
  · subst h
    simp only [setData, attribute?, get?_modify]
    cases d.get? x with
    | none => rfl
    | some n => by_cases he : n.isElement <;> simp [he, Node.attr?]
  · exact attribute?_modify_of_ne h key

end setData

/-! ### Attribute writes -/

section setAttribute

variable {d : Document} {x y : NodeId} {key value : String}

theorem find?_setAttr_self (attrs : List (String × String)) :
    (setAttribute.setAttr key value attrs).find? (·.1 == key) = some (key, value) := by
  induction attrs with
  | nil => simp [setAttribute.setAttr]
  | cons kv rest ih =>
    by_cases h : (kv.1 == key) = true
    · simp [setAttribute.setAttr, h]
    · simp [setAttribute.setAttr, h, ih]

theorem find?_setAttr_of_ne {other : String} (hne : other ≠ key) (attrs : List (String × String)) :
    (setAttribute.setAttr key value attrs).find? (·.1 == other) = attrs.find? (·.1 == other) := by
  induction attrs with
  | nil => simp [setAttribute.setAttr, Ne.symm hne]
  | cons kv rest ih =>
    by_cases h : (kv.1 == key) = true
    · have hk : kv.1 = key := by simpa using h
      simp [setAttribute.setAttr, hk, Ne.symm hne]
    · simp only [setAttribute.setAttr, h, Bool.false_eq_true, if_false, List.find?_cons]
      split <;> simp_all

theorem data?_setAttribute : (d.setAttribute x key value).data? y = d.data? y := by
  by_cases h : x = y
  · subst h
    simp only [setAttribute, data?, get?_modify]
    cases d.get? x with
    | none => rfl
    | some n => cases he : n.isElement <;> simp_all [Node.isElement]
  · exact data?_modify_of_ne h

theorem tagName?_setAttribute : (d.setAttribute x key value).tagName? y = d.tagName? y :=
  tagName?_modify_of (fun n => by split <;> rfl) (fun n => by split <;> rfl) x y

/-- An element shows the attribute value just written. -/
theorem attribute?_setAttribute_self (he : (d.tagName? x).isSome) :
    (d.setAttribute x key value).attribute? x key = some value := by
  simp only [tagName?] at he
  simp only [setAttribute, attribute?, get?_modify]
  cases hx : d.get? x with
  | none => simp [hx] at he
  | some n =>
    rw [hx] at he
    cases hn : n.isElement
    · simp [hn] at he
    · simp [hn, Node.attr?, find?_setAttr_self]

theorem attribute?_setAttribute_of_ne {other : String} (hne : other ≠ key) :
    (d.setAttribute x key value).attribute? y other = d.attribute? y other := by
  by_cases h : x = y
  · subst h
    simp only [setAttribute, attribute?, get?_modify]
    cases d.get? x with
    | none => rfl
    | some n => by_cases he : n.isElement <;> simp [he, Node.attr?, find?_setAttr_of_ne hne]
  · exact attribute?_modify_of_ne h other

end setAttribute

/-! ### Writes at places -/

section write

variable {d : Document} {p q : WritePlace} {w w' : String}

/-- A write makes its place hold the written value. -/
theorem holds_write_self : (d.write p w).Holds p w := by
  cases p with
  | data x =>
    show (d.setData x w).data? x = none ∨ (d.setData x w).data? x = some w
    rw [data?_setData_self]
    cases d.data? x <;> simp
  | attr x name =>
    show (d.setAttribute x name w).tagName? x = none ∨ (d.setAttribute x name w).attribute? x name = some w
    rw [tagName?_setAttribute]
    cases hx : d.tagName? x with
    | none => exact .inl rfl
    | some _ => exact .inr (attribute?_setAttribute_self (by simp [hx]))

/-- A write leaves every other place as a reader sees it. -/
theorem sameAt_write_of_ne (h : q ≠ p) : d.SameAt (d.write q w) p := by
  cases q with
  | data y =>
    cases p with
    | data x =>
      have hne : y ≠ x := fun he => h (he ▸ rfl)
      exact data?_modify_of_ne hne
    | attr x name => exact ⟨tagName?_setData, attribute?_setData name⟩
  | attr y key =>
    cases p with
    | data x => exact data?_setAttribute
    | attr x name =>
      refine ⟨tagName?_setAttribute, ?_⟩
      by_cases hy : y = x
      · subst hy
        have hk : name ≠ key := fun he => h (he ▸ rfl)
        exact attribute?_setAttribute_of_ne hk
      · exact attribute?_modify_of_ne hy name

theorem Holds.write_of_ne (hd : d.Holds p w) (h : q ≠ p) : (d.write q w').Holds p w :=
  (sameAt_write_of_ne h).holds hd

end write

/-! ### Runs of writes -/

/-- Writes values at places, in order. -/
def writeAll (d : Document) (ws : List (WritePlace × String)) : Document :=
  ws.foldl (fun d pw => d.write pw.1 pw.2) d

section writeAll

variable {d : Document} {p : WritePlace} {w : String}

@[simp] theorem writeAll_nil : d.writeAll [] = d := rfl

theorem writeAll_cons (pw : WritePlace × String) (ws : List (WritePlace × String)) :
    d.writeAll (pw :: ws) = (d.write pw.1 pw.2).writeAll ws := rfl

theorem writeAll_append (ws ws' : List (WritePlace × String)) :
    d.writeAll (ws ++ ws') = (d.writeAll ws).writeAll ws' := by
  simp [writeAll, List.foldl_append]

theorem writeAll_filterMap {α : Type} (f : α → Option (WritePlace × String)) (xs : List α) :
    d.writeAll (xs.filterMap f) = xs.foldl (fun d a => d.writeAll (f a).toList) d := by
  induction xs generalizing d with
  | nil => rfl
  | cons a rest ih =>
    rw [List.filterMap_cons, List.foldl_cons]
    cases f a with
    | none => exact ih
    | some pw => rw [writeAll_cons]; exact ih

/-- A run of writes at other places leaves a place as a reader sees it. -/
theorem sameAt_writeAll {ws : List (WritePlace × String)} (h : p ∉ ws.map (·.1)) :
    d.SameAt (d.writeAll ws) p := by
  induction ws generalizing d with
  | nil => exact SameAt.refl d p
  | cons pw rest ih =>
    simp only [List.map_cons, List.mem_cons, not_or] at h
    exact (sameAt_write_of_ne (Ne.symm h.1)).trans (ih h.2)

/-- In a run of writes at distinct places, each place holds the value written there. -/
theorem holds_writeAll {ws : List (WritePlace × String)} (hnd : (ws.map (·.1)).Nodup)
    (hmem : (p, w) ∈ ws) : (d.writeAll ws).Holds p w := by
  induction ws generalizing d with
  | nil => simp at hmem
  | cons pw rest ih =>
    rw [List.map_cons, List.nodup_cons] at hnd
    rw [writeAll_cons]
    rcases List.mem_cons.mp hmem with rfl | hmem
    · exact (sameAt_writeAll hnd.1).holds holds_write_self
    · exact ih hnd.2 hmem

end writeAll

end Document

end ViewHydration
