import ViewHydration.Render.Run

/-!
# Running render operations

A render operation is run from a context and ends in a value or an error, with the context it
leaves. This module gives the two judgements the proofs about render passes are stated with:
`RenderM.Ok x c Q`, the operation succeeds from `c` and its value and final context satisfy `Q`,
and `RenderM.Fails x c e`, it fails from `c` with the error `e`. Both follow `bind`, so a proof
about a `do` block goes through its steps in order, one lemma per step.

## Main definitions

- `RenderM.Ok` — success, with a postcondition on the value and the final context
- `RenderM.Fails` — failure with a given error
-/

namespace ViewHydration

namespace RenderM

variable {α β : Type}

theorem run_bind (x : RenderM α) (f : α → RenderM β) (c : Context) :
    (x >>= f).run.run c = match x.run.run c with
      | (.ok a, c') => (f a).run.run c'
      | (.error e, c') => (.error e, c') := by
  rw [ExceptT.run_bind, StateT.run_bind]
  rcases x.run.run c with ⟨_ | a, c'⟩ <;> rfl

theorem run_pure (a : α) (c : Context) : (pure a : RenderM α).run.run c = (.ok a, c) := rfl

theorem run_get (c : Context) : (get : RenderM Context).run.run c = (.ok c, c) := rfl

theorem run_modify (f : Context → Context) (c : Context) :
    (modify f : RenderM PUnit).run.run c = (.ok ⟨⟩, f c) := rfl

theorem discard_eq (x : RenderM α) : discard x = (x >>= fun _ => pure ⟨⟩ : RenderM PUnit) := by
  rw [Functor.discard, LawfulFunctor.map_const, Function.comp_apply, map_eq_pure_bind]

/-- A step taken only under a condition and followed by `y` is the conditional step, then `y`. -/
theorem ite_bind_unit (b : Prop) [Decidable b] (x : RenderM PUnit) (y : RenderM α) :
    (if b then x >>= fun _ => y else y) = (if b then x else pure ⟨⟩) >>= fun _ => y := by
  split <;> simp

/-- The operation succeeds from `c`, and its value and final context satisfy `Q`. -/
def Ok (x : RenderM α) (c : Context) (Q : α → Context → Prop) : Prop :=
  ∃ a c', x.run.run c = (.ok a, c') ∧ Q a c'

/-- The operation fails from `c` with the error `e`. -/
def Fails (x : RenderM α) (c : Context) (e : RenderError) : Prop :=
  (x.run.run c).1 = .error e

namespace Ok

variable {x : RenderM α} {c : Context} {P Q : α → Context → Prop}

theorem of_run {a : α} {c' : Context} (h : x.run.run c = (.ok a, c')) (hq : Q a c') :
    Ok x c Q :=
  ⟨a, c', h, hq⟩

/-- An operation whose run ends in a value succeeds, with the context the run ends in. -/
theorem of_fst {a : α} (h : (x.run.run c).1 = .ok a) (hq : Q a (x.run.run c).2) : Ok x c Q :=
  ⟨a, _, Prod.ext h rfl, hq⟩

theorem mono (h : Ok x c P) (hpq : ∀ a c', P a c' → Q a c') : Ok x c Q := by
  obtain ⟨a, c', hr, hp⟩ := h
  exact ⟨a, c', hr, hpq a c' hp⟩

theorem bind {f : α → RenderM β} {Q : β → Context → Prop}
    (h : Ok x c fun a c' => Ok (f a) c' Q) : Ok (x >>= f) c Q := by
  obtain ⟨a, c₁, hr, b, c₂, hf, hq⟩ := h
  exact ⟨b, c₂, by rw [run_bind, hr]; exact hf, hq⟩

theorem pure {a : α} (h : Q a c) : Ok (Pure.pure a) c Q := ⟨a, c, rfl, h⟩

theorem modify {f : Context → Context} {Q : PUnit → Context → Prop} (h : Q ⟨⟩ (f c)) :
    Ok (modify f : RenderM PUnit) c Q :=
  ⟨⟨⟩, f c, rfl, h⟩

theorem get {Q : Context → Context → Prop} (h : Q c c) : Ok (get : RenderM Context) c Q :=
  ⟨c, c, rfl, h⟩

theorem set {c' : Context} {Q : PUnit → Context → Prop} (h : Q ⟨⟩ c') :
    Ok (set c' : RenderM PUnit) c Q :=
  ⟨⟨⟩, c', rfl, h⟩

theorem ite {p : Prop} [Decidable p] {y : RenderM α} (hx : p → Ok x c Q) (hy : ¬p → Ok y c Q) :
    Ok (if p then x else y) c Q := by
  by_cases hp : p
  · simpa [hp] using hx hp
  · simpa [hp] using hy hp

/-- A handler is not run when the operation succeeds. -/
theorem tryCatch {handler : RenderError → RenderM α} (h : Ok x c Q) : Ok (tryCatch x handler) c Q := by
  obtain ⟨a, c', hr, hq⟩ := h
  refine ⟨a, c', ?_, hq⟩
  show (ExceptT.tryCatch x handler).run.run c = _
  rw [ExceptT.tryCatch, ExceptT.run_mk, StateT.run_bind]
  simp only [ExceptT.run] at hr ⊢
  rw [hr]
  rfl

/-- A loop whose body always yields, changing the context by `g`, changes it by `g` for each
element in order. -/
theorem forIn_yield {xs : List β} {f : β → PUnit → RenderM (ForInStep PUnit)}
    (g : β → Context → Context)
    (hf : ∀ a ∈ xs, ∀ c, Ok (f a ⟨⟩) c fun r c' => r = .yield ⟨⟩ ∧ c' = g a c) :
    Ok (forIn xs ⟨⟩ f) c fun _ c' => c' = xs.foldl (fun c a => g a c) c := by
  induction xs generalizing c with
  | nil => exact pure rfl
  | cons a rest ih =>
    rw [List.forIn_cons]
    refine bind ((hf a List.mem_cons_self c).mono ?_)
    rintro _ _ ⟨rfl, rfl⟩
    exact ih (fun b hb => hf b (List.mem_cons_of_mem a hb))

/-- A loop whose body yields and keeps an invariant about the elements done so far keeps it for
the whole list. -/
theorem forIn_inv {xs : List β} {f : β → PUnit → RenderM (ForInStep PUnit)}
    (I : List β → Context → Prop)
    (hf : ∀ pre a post, xs = pre ++ a :: post → ∀ c, I pre c →
      Ok (f a ⟨⟩) c fun r c' => r = .yield ⟨⟩ ∧ I (pre ++ [a]) c')
    (h : I [] c) : Ok (forIn xs ⟨⟩ f) c fun _ c' => I xs c' := by
  -- the loop over the rest of the list, after the elements `done`
  suffices hrest : ∀ rest done c, xs = done ++ rest → I done c →
      Ok (forIn rest ⟨⟩ f) c fun _ c' => I xs c' from hrest xs [] c rfl h
  intro rest
  induction rest with
  | nil =>
    intro done c hxs hi
    rw [List.append_nil] at hxs
    exact pure (hxs ▸ hi)
  | cons a rest ih =>
    intro done c hxs hi
    rw [List.forIn_cons]
    refine bind ((hf done a rest hxs c hi).mono ?_)
    rintro _ c' ⟨rfl, hi'⟩
    exact ih (done ++ [a]) c' (by rw [hxs, List.append_assoc, List.singleton_append]) hi'

end Ok

namespace Fails

variable {x : RenderM α} {c : Context} {e : RenderError}

theorem bind_left {f : α → RenderM β} (h : Fails x c e) : Fails (x >>= f) c e := by
  unfold Fails at h ⊢
  rw [run_bind]
  rcases hr : x.run.run c with ⟨_ | a, c'⟩
  · rw [hr] at h
    simpa using h
  · rw [hr] at h
    cases h

theorem bind_right {f : α → RenderM β} (h : Ok x c fun a c' => Fails (f a) c' e) :
    Fails (x >>= f) c e := by
  obtain ⟨a, c', hr, hf⟩ := h
  unfold Fails
  rw [run_bind, hr]
  exact hf

theorem throw : Fails (throw e : RenderM α) c e := rfl

/-- A failure whose handler fails with `e'` from any context fails with `e'`. -/
theorem tryCatch {handler : RenderError → RenderM α} {e' : RenderError} (h : Fails x c e)
    (hh : ∀ c', Fails (handler e) c' e') : Fails (tryCatch x handler) c e' := by
  unfold Fails at h ⊢
  show ((ExceptT.tryCatch x handler).run.run c).1 = _
  rw [ExceptT.tryCatch, ExceptT.run_mk, StateT.run_bind]
  simp only [ExceptT.run] at h ⊢
  rcases hr : StateT.run x c with ⟨r, c'⟩
  rw [hr] at h
  cases h
  exact hh c'

end Fails

/-- The operation ends as the plan `r` says: when `r` is a value `b` it succeeds and its final
context satisfies `Q b`; when `r` is an error `e` it fails with `E e`. -/
def Follows {ε β : Type} (x : RenderM α) (c : Context) (r : Except ε β) (E : ε → RenderError)
    (Q : β → Context → Prop) : Prop :=
  match r with
  | .ok b => Ok x c fun _ => Q b
  | .error e => Fails x c (E e)

namespace Follows

variable {ε β δ : Type} {x : RenderM α} {c : Context} {E : ε → RenderError} {Q : β → Context → Prop}

/-- Operations run in sequence follow plans run in sequence. -/
theorem bind {γ : Type} {y : RenderM γ} {r : Except ε δ} {g : δ → Except ε β} {P : δ → Context → Prop}
    (h : Follows x c r E P) (hk : ∀ d c', P d c' → Follows y c' (g d) E Q) :
    Follows (x >>= fun _ => y) c (r.bind g) E Q := by
  cases r with
  | error e => exact Fails.bind_left h
  | ok d =>
    show Follows _ c (g d) E Q
    cases hg : g d with
    | error e =>
      refine Fails.bind_right (Ok.mono h fun _ c' hp => ?_)
      have hy := hk d c' hp
      rw [hg] at hy
      exact hy
    | ok b =>
      refine Ok.bind (Ok.mono h fun _ c' hp => ?_)
      have hy := hk d c' hp
      rw [hg] at hy
      exact hy

/-- An operation that succeeds first passes the plan on to what runs after it. -/
theorem ok_bind {γ : Type} {f : α → RenderM γ} {r : Except ε β}
    (h : Ok x c fun a c' => Follows (f a) c' r E Q) : Follows (x >>= f) c r E Q := by
  cases r with
  | error e => exact Fails.bind_right h
  | ok b => exact Ok.bind h

theorem bind_pure {γ : Type} {r : Except ε β} {a : γ} (h : Follows x c r E Q) :
    Follows (x >>= fun _ => (pure a : RenderM γ)) c r E Q := by
  cases r with
  | error e => exact Fails.bind_left h
  | ok b => exact Ok.bind (Ok.mono h fun _ _ hq => Ok.pure hq)

/-- For an operation without a value, the outcome is the plan with its errors translated. -/
theorem run_fst {x : RenderM Unit} {r : Except ε Unit} {Q : Unit → Context → Prop}
    (h : Follows x c r E Q) : (x.run.run c).1 = r.mapError E := by
  cases r with
  | error e => exact h
  | ok b =>
    obtain ⟨a, c', hr, -⟩ := h
    rw [hr]
    rfl

end Follows

end RenderM

end ViewHydration
