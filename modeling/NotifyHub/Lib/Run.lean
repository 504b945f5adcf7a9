/-
  NotifyHub.Lib.Run — runs of a step function: the state after a list of events, what
  holds of every step of a run (`Along`), and the induction that carries an invariant
  from the start of a run to its end.
-/

namespace NotifyHub

variable {σ ε : Type} (step : σ → ε → σ)

def runFrom (s : σ) (es : List ε) : σ := es.foldl step s

/-- Every step of the run from `s` meets `Ok` in the state it is taken in. -/
def Along (Ok : σ → ε → Prop) : σ → List ε → Prop
  | _, [] => True
  | s, e :: es => Ok s e ∧ Along Ok (step s e) es

instance Along.decidable {Ok : σ → ε → Prop} [∀ s e, Decidable (Ok s e)] :
    ∀ (s : σ) (es : List ε), Decidable (Along step Ok s es)
  | _, [] => inferInstanceAs (Decidable True)
  | s, e :: es => @instDecidableAnd _ _ _ (Along.decidable (step s e) es)

variable {step}

@[simp] theorem runFrom_nil (s : σ) : runFrom step s [] = s := rfl

@[simp] theorem runFrom_cons (s : σ) (e : ε) (es : List ε) :
    runFrom step s (e :: es) = runFrom step (step s e) es := rfl

theorem runFrom_append (s : σ) (es fs : List ε) :
    runFrom step s (es ++ fs) = runFrom step (runFrom step s es) fs := List.foldl_append ..

theorem along_append {Ok : σ → ε → Prop} {s : σ} {es fs : List ε} :
    Along step Ok s (es ++ fs) ↔ Along step Ok s es ∧ Along step Ok (runFrom step s es) fs := by
  induction es generalizing s with
  | nil => simp [Along]
  | cons e es ih => simp only [List.cons_append, Along, runFrom_cons, ih, and_assoc]

/-- A property of every step, spelled out. -/
theorem along_iff {Ok : σ → ε → Prop} {s : σ} {es : List ε} :
    Along step Ok s es ↔ ∀ before e after, es = before ++ e :: after → Ok (runFrom step s before) e := by
  induction es generalizing s with
  | nil => simp [Along]
  | cons e es ih =>
    rw [Along, ih]
    constructor
    · intro ⟨he, hes⟩ before e' after hsplit
      cases before with
      | nil => cases hsplit; exact he
      | cons x before =>
        obtain ⟨rfl, htail⟩ := List.cons.inj hsplit
        exact hes before e' after htail
    · intro h
      exact ⟨h [] e es rfl, fun before e' after hsplit => h (e :: before) e' after (by rw [hsplit]; rfl)⟩

theorem Along.mono {Ok Ok' : σ → ε → Prop} (h : ∀ s e, Ok s e → Ok' s e) :
    ∀ {s : σ} {es : List ε}, Along step Ok s es → Along step Ok' s es
  | _, [], _ => trivial
  | _, _ :: _, ha => ⟨h _ _ ha.1, Along.mono h ha.2⟩

theorem Along.and {Ok Ok' : σ → ε → Prop} :
    ∀ {s : σ} {es : List ε}, Along step Ok s es → Along step Ok' s es → Along step (fun s e => Ok s e ∧ Ok' s e) s es
  | _, [], _, _ => trivial
  | _, _ :: _, h, h' => ⟨⟨h.1, h'.1⟩, h.2.and h'.2⟩

/-- Two requirements agree along a run of such events when they agree in every state that one of them keeps. -/
theorem along_congr {Ok Ok' : σ → ε → Prop} {I : σ → Prop} {E : ε → Prop} (hok : ∀ s e, I s → E e → (Ok s e ↔ Ok' s e))
    (hstep : ∀ s e, I s → E e → Ok s e → I (step s e)) {es : List ε} {s : σ} (hes : ∀ e ∈ es, E e) (hi : I s) :
    Along step Ok s es ↔ Along step Ok' s es := by
  induction es generalizing s with
  | nil => exact Iff.rfl
  | cons e es ih =>
    have he := hes e List.mem_cons_self
    rw [Along, Along, ← hok s e hi he]
    exact and_congr_right fun h => ih (fun e' he' => hes e' (List.mem_cons_of_mem _ he')) (hstep s e hi he h)

/-- What each allowed step keeps holds after the run. -/
theorem Along.inv {Ok : σ → ε → Prop} {I : σ → Prop} (hstep : ∀ s e, I s → Ok s e → I (step s e)) :
    ∀ {es : List ε} {s : σ}, I s → Along step Ok s es → I (runFrom step s es) := by
  intro es
  induction es with
  | nil => intro s hi _; exact hi
  | cons e es ih => intro s hi ha; exact ih (hstep s e hi ha.1) ha.2

/-- Where a step keeps `Good` exactly if it is allowed, every state of a run is good exactly
    if every step was allowed. -/
theorem good_iff_along {J Good : σ → Prop} {Ok : σ → ε → Prop} (hJ : ∀ s e, J s → J (step s e))
    (hstep : ∀ s e, J s → Good s → (Good (step s e) ↔ Ok s e)) :
    ∀ {es : List ε} {s : σ}, J s → Good s →
      ((∀ before after, es = before ++ after → Good (runFrom step s before)) ↔ Along step Ok s es) := by
  intro es
  induction es with
  | nil =>
    intro s _ hg
    refine iff_of_true (fun before after hsplit => ?_) trivial
    rw [(List.append_eq_nil_iff.mp hsplit.symm).1]
    exact hg
  | cons e es ih =>
    intro s hj hg
    constructor
    · intro h
      have he : Good (step s e) := h [e] es rfl
      refine ⟨(hstep s e hj hg).mp he, (ih (hJ s e hj) he).mp fun before after hsplit => ?_⟩
      exact h (e :: before) after (by rw [hsplit]; rfl)
    · intro ⟨he, hes⟩ before after hsplit
      cases before with
      | nil => exact hg
      | cons x before =>
        obtain ⟨rfl, htail⟩ := List.cons.inj hsplit
        exact (ih (hJ s e hj) ((hstep s e hj hg).mpr he)).mpr hes before after htail

/-- What every step keeps holds after every run. -/
theorem runFrom_inv {I : σ → Prop} (hstep : ∀ s e, I s → I (step s e)) {s : σ} (hi : I s) :
    ∀ es : List ε, I (runFrom step s es) := by
  intro es
  induction es generalizing s with
  | nil => exact hi
  | cons e es ih => exact ih (hstep s e hi)

/-- What holds after a run held of its start, or a step of the run brought it. -/
theorem runFrom_origin {P : σ → Prop} {By : σ → ε → Prop} (hstep : ∀ s e, P (step s e) → P s ∨ By s e) {s : σ} :
    ∀ es : List ε, P (runFrom step s es) → P s ∨ ∃ before e after, es = before ++ e :: after ∧
      By (runFrom step s before) e := by
  intro es
  induction es generalizing s with
  | nil => exact Or.inl
  | cons e es ih =>
    intro hend
    rcases ih hend with hfirst | ⟨before, e', after, rfl, hby⟩
    · rcases hstep s e hfirst with hs | hby
      · exact Or.inl hs
      · exact Or.inr ⟨[], e, es, rfl, hby⟩
    · exact Or.inr ⟨e :: before, e', after, rfl, hby⟩

end NotifyHub
