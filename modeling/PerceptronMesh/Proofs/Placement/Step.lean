import PerceptronMesh.Placement.Service

/-!
Steps run one after another, steps run on a part of a state, and what steps keep.
-/

namespace PerceptronMesh

namespace Step

variable {ε σ τ α β : Type} {before later : σ} {a : α} {e : ε}

theorem bind_ok {x : EStateM ε σ α} {f : α → EStateM ε σ β} (h : x before = .ok a later) :
    (x >>= f) before = f a later := by
  show EStateM.bind x f before = f a later
  rw [EStateM.bind, h]

theorem bind_error {x : EStateM ε σ α} {f : α → EStateM ε σ β} (h : x before = .error e later) :
    (x >>= f) before = .error e later := by
  show EStateM.bind x f before = .error e later
  rw [EStateM.bind, h]

theorem bind_eq_ok_iff {x : EStateM ε σ α} {f : α → EStateM ε σ β} {b : β} {last : σ} :
    (x >>= f) before = .ok b last ↔ ∃ a later, x before = .ok a later ∧ f a later = .ok b last := by
  constructor
  · intro h
    cases hx : x before with
    | ok a later => exact ⟨a, later, rfl, (bind_ok hx).symm.trans h⟩
    | error e later => cases (bind_error hx).symm.trans h
  · rintro ⟨a, later, hx, hf⟩
    exact (bind_ok hx).trans hf

theorem map_ok {x : EStateM ε σ α} {f : α → β} (h : x before = .ok a later) :
    (f <$> x) before = .ok (f a) later := by
  show EStateM.map f x before = .ok (f a) later
  rw [EStateM.map, h]

theorem map_error {x : EStateM ε σ α} {f : α → β} (h : x before = .error e later) :
    (f <$> x) before = .error e later := by
  show EStateM.map f x before = .error e later
  rw [EStateM.map, h]

theorem map_eq_ok {x : EStateM ε σ α} {f : α → β} {b : β} (h : (f <$> x) before = .ok b later) :
    ∃ a, x before = .ok a later ∧ f a = b := by
  cases hx : x before with
  | ok a _ =>
    cases (map_ok hx).symm.trans h
    exact ⟨a, rfl, rfl⟩
  | error e _ => cases (map_error hx).symm.trans h

theorem ofResult_ok {x : Result α} (h : x = .ok a) : (ofResult x : Step σ α) before = .ok a before := by
  rw [h]
  rfl

theorem ofResult_error {x : Result α} {fault : Error} (h : x = .error fault) :
    (ofResult x : Step σ α) before = .error fault before := by
  rw [h]
  rfl

/-- Changes made one after another. -/
theorem forM_modify {ι : Type} (change : ι → σ → σ) (items : List ι) (before : σ) :
    (forM items fun item => modify (change item) : EStateM ε σ PUnit) before =
      .ok () (items.foldl (fun state item => change item state) before) := by
  induction items generalizing before with
  | nil => rfl
  | cons item rest ih =>
    rw [List.forM_cons, List.foldl_cons, bind_ok (x := modify _) rfl]
    exact ih _

variable {part : τ → σ} {replace : σ → τ → τ} {step : Step σ α} {whole last : τ}

theorem onPart_ok (h : step (part whole) = .ok a later) :
    onPart part replace step whole = .ok a (replace later whole) := by
  rw [onPart, h]

theorem onPart_error {fault : Error} (h : step (part whole) = .error fault later) :
    onPart part replace step whole = .error fault (replace later whole) := by
  rw [onPart, h]

theorem onPart_eq_ok (h : onPart part replace step whole = .ok a last) :
    ∃ later, step (part whole) = .ok a later ∧ last = replace later whole := by
  unfold onPart at h
  cases hstep : step (part whole) with
  | ok _ later =>
    rw [hstep] at h
    cases h
    exact ⟨later, rfl, rfl⟩
  | error e later =>
    rw [hstep] at h
    cases h

theorem ofResult_eq_ok {x : Result α} (h : (ofResult x : Step σ α) before = .ok a later) :
    x = .ok a ∧ later = before := by
  cases x with
  | ok _ =>
    cases h
    exact ⟨rfl, rfl⟩
  | error e => cases h

theorem ofResult_bind_eq_ok {x : Result α} {f : α → Step σ β} {b : β} {later : σ}
    (h : (ofResult x >>= f) before = .ok b later) : ∃ a, x = .ok a ∧ f a before = .ok b later := by
  cases x with
  | ok a => exact ⟨a, rfl, h⟩
  | error e => cases h

/-- The state after a step, whether it failed or not. -/
def after (x : EStateM ε σ α) (before : σ) : σ :=
  match x before with
  | .ok _ later => later
  | .error _ later => later

theorem after_ok {x : EStateM ε σ α} (h : x before = .ok a later) : after x before = later := by
  rw [after, h]

theorem after_error {x : EStateM ε σ α} (h : x before = .error e later) : after x before = later := by
  rw [after, h]

theorem after_bind_ok {x : EStateM ε σ α} (f : α → EStateM ε σ β) (h : x before = .ok a later) :
    after (x >>= f) before = after (f a) later := by
  rw [after, bind_ok h]
  rfl

theorem after_bind_error {x : EStateM ε σ α} (f : α → EStateM ε σ β) (h : x before = .error e later) :
    after (x >>= f) before = later :=
  after_error (bind_error h)

/-- What a step answers is no part of the state. -/
theorem after_bind_pure (x : EStateM ε σ α) (b : β) : after (x >>= fun _ => pure b) before = after x before := by
  cases h : x before with
  | ok a later =>
    rw [after_ok h]
    exact after_bind_ok _ h
  | error e later =>
    rw [after_error h]
    exact after_bind_error _ h

theorem after_congr {x y : EStateM ε σ α} {other : σ} (h : x before = y other) :
    after x before = after y other := by
  rw [after, h]
  rfl

/-- A step leads from states with a property to such states, whether it fails or not. -/
def Keeps (P : σ → Prop) (x : EStateM ε σ α) : Prop := ∀ before, P before → P (after x before)

section Keeps

variable {P : σ → Prop} {x : EStateM ε σ α}

theorem Keeps.ok (hx : Keeps P x) (hbefore : P before) (h : x before = .ok a later) : P later := by
  rw [← after_ok h]
  exact hx before hbefore

theorem Keeps.error (hx : Keeps P x) (hbefore : P before) (h : x before = .error e later) : P later := by
  rw [← after_error h]
  exact hx before hbefore

theorem keeps_pure (a : α) : Keeps P (pure a : EStateM ε σ α) := fun _ h => h

theorem keeps_throw (e : ε) : Keeps P (throw e : EStateM ε σ α) := fun _ h => h

/-- Nothing comes after a throw. -/
theorem keeps_throw_bind (e : ε) {β : Type} (rest : α → EStateM ε σ β) : Keeps P (throw e >>= rest) := fun _ h => h

theorem keeps_get : Keeps P (get : EStateM ε σ σ) := fun _ h => h

theorem keeps_modify {change : σ → σ} (h : ∀ s, P s → P (change s)) :
    Keeps P (modify change : EStateM ε σ Unit) := h

theorem keeps_ofResult (result : Result α) : Keeps P (ofResult result : Step σ α) := by
  cases result
  · exact keeps_throw _
  · exact keeps_pure _

theorem Keeps.bind {f : α → EStateM ε σ β} (hx : Keeps P x) (hf : ∀ a, Keeps P (f a)) :
    Keeps P (x >>= f) := by
  intro before hbefore
  cases h : x before with
  | ok a later =>
    rw [after_bind_ok f h]
    exact hf a later (hx.ok hbefore h)
  | error e later =>
    rw [after_bind_error f h]
    exact hx.error hbefore h

theorem Keeps.map (hx : Keeps P x) (f : α → β) : Keeps P (f <$> x) := by
  intro before hbefore
  cases h : x before with
  | ok a later =>
    rw [after_ok (map_ok h)]
    exact hx.ok hbefore h
  | error e later =>
    rw [after_error (map_error h)]
    exact hx.error hbefore h

theorem keeps_ite {c : Prop} [Decidable c] {y : EStateM ε σ α} (hx : Keeps P x) (hy : Keeps P y) :
    Keeps P (if c then x else y) := by
  split
  · exact hx
  · exact hy

theorem keeps_forM {items : List α} {f : α → EStateM ε σ PUnit} (h : ∀ item, Keeps P (f item)) :
    Keeps P (items.forM f) := by
  induction items with
  | nil => exact keeps_pure _
  | cons item rest ih => exact (h item).bind fun _ => ih

/-- A property of the whole that does not look at a part is kept by steps on the part. -/
theorem keeps_onPart {Q : τ → Prop} {part : τ → σ} {replace : σ → τ → τ}
    (h : ∀ changed whole, Q whole → Q (replace changed whole)) (step : Step σ α) :
    Keeps Q (onPart part replace step) := by
  intro whole hwhole
  cases hstep : step (part whole) with
  | ok a later =>
    rw [after_ok (onPart_ok hstep)]
    exact h _ _ hwhole
  | error e later =>
    rw [after_error (onPart_error hstep)]
    exact h _ _ hwhole

end Keeps

/-- The result of a step with a view of the state that it leaves. -/
def mapState (view : σ → τ) : EStateM.Result ε σ α → EStateM.Result ε τ α
  | .ok a later => .ok a (view later)
  | .error e later => .error e (view later)

/-- A step on the view of a state goes as another does on the state itself. -/
def Mirrors (view : σ → τ) (x : EStateM ε τ α) (y : EStateM ε σ α) (before : σ) : Prop :=
  x (view before) = mapState view (y before)

section Mirrors

variable {view : σ → τ} {x : EStateM ε τ α} {y : EStateM ε σ α}

theorem Mirrors.after_eq (h : Mirrors view x y before) : after x (view before) = view (after y before) := by
  unfold Mirrors at h
  unfold after
  rw [h]
  cases y before <;> rfl

theorem Mirrors.eq_ok (h : Mirrors view x y before) (hy : y before = .ok a later) :
    x (view before) = .ok a (view later) := by
  unfold Mirrors at h
  rw [h, hy]
  rfl

theorem Mirrors.eq_error (h : Mirrors view x y before) (hy : y before = .error e later) :
    x (view before) = .error e (view later) := by
  unfold Mirrors at h
  rw [h, hy]
  rfl

/-- The second of two steps need be mirrored only where the first one leads. -/
theorem Mirrors.bind {f : α → EStateM ε τ β} {g : α → EStateM ε σ β} (h : Mirrors view x y before)
    (hrest : ∀ a later, y before = .ok a later → Mirrors view (f a) (g a) later) :
    Mirrors view (x >>= f) (y >>= g) before := by
  unfold Mirrors
  cases hy : y before with
  | ok a later =>
    rw [bind_ok (h.eq_ok hy), bind_ok hy]
    exact hrest a later hy
  | error e later =>
    rw [bind_error (h.eq_error hy), bind_error hy]
    rfl

theorem Mirrors.get_left {f : τ → EStateM ε τ α} (h : Mirrors view (f (view before)) y before) :
    Mirrors view (get >>= f) y before := h

theorem Mirrors.get_right {g : σ → EStateM ε σ α} (h : Mirrors view x (g before) before) :
    Mirrors view x (get >>= g) before := h

theorem Mirrors.get_bind {f : τ → EStateM ε τ α} {g : σ → EStateM ε σ α}
    (h : Mirrors view (f (view before)) (g before) before) : Mirrors view (get >>= f) (get >>= g) before := h

theorem Mirrors.set_bind {f : PUnit → EStateM ε τ α} {g : PUnit → EStateM ε σ α}
    (h : Mirrors view (f ⟨⟩) (g ⟨⟩) later) : Mirrors view (set (view later) >>= f) (set later >>= g) before := h

theorem mirrors_pure (a : α) : Mirrors view (pure a : EStateM ε τ α) (pure a) before := rfl

theorem mirrors_ofResult (result : Result α) : Mirrors view (ofResult result) (ofResult result) before := by
  cases result <;> rfl

theorem mirrors_modify {change : τ → τ} {changed : σ → σ} (h : change (view before) = view (changed before)) :
    Mirrors view (modify change : EStateM ε τ PUnit) (modify changed) before :=
  congrArg (EStateM.Result.ok PUnit.unit) h

/-- A step on a part is mirrored by the same step on the same part of the view. -/
theorem mirrors_onPart {ρ : Type} {part : σ → ρ} {replace : ρ → σ → σ} {viewed : τ → ρ} {replaced : ρ → τ → τ}
    (hpart : viewed (view before) = part before)
    (hreplace : ∀ changed, replaced changed (view before) = view (replace changed before)) (step : Step ρ α) :
    Mirrors view (onPart viewed replaced step) (onPart part replace step) before := by
  unfold Mirrors onPart
  rw [hpart]
  cases step (part before) with
  | ok a changed => exact congrArg (EStateM.Result.ok a) (hreplace changed)
  | error e changed => exact congrArg (EStateM.Result.error e) (hreplace changed)

theorem mirrors_forM {ι : Type} {items : List ι} {f : ι → EStateM ε τ PUnit} {g : ι → EStateM ε σ PUnit}
    (h : ∀ item before, Mirrors view (f item) (g item) before) :
    Mirrors view (items.forM f) (items.forM g) before := by
  induction items generalizing before with
  | nil => rfl
  | cons item rest ih => exact (h item before).bind fun _ _ _ => ih

end Mirrors

end Step

end PerceptronMesh
