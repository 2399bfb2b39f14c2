import Mathlib.Data.List.Induction

/-!
Runs of a partial, labelled step function.

A component is given by `step : σ → ε → Option σ`: `none` means that the label
is not enabled in the state. A run is a list of labels taken in order, so the
interleavings of several threads are exactly the lists of their labels. The
module states once the two inductions a development needs over such runs: a
property of one step that is preserved (`Run.invariant`, `Run.relates`), and a
property that also reads the labels taken so far (`Run.history`). `Meets`
restricts a run to steps that satisfy a condition on the state before the step,
and `Throughout.iff_meets` says when such a condition is exactly what keeps a
property true in every state along the run.
-/

namespace Rfsis.Transition

universe u v

variable {σ : Type u} {ε : Type v} {step : σ → ε → Option σ}

/-- The state after taking the labels in order, if every one is enabled. -/
def exec (step : σ → ε → Option σ) : σ → List ε → Option σ
  | s, [] => some s
  | s, e :: es => (step s e).bind fun t => exec step t es

/-- `Run step s es t`: the labels `es` lead from `s` to `t`. -/
abbrev Run (step : σ → ε → Option σ) (s : σ) (es : List ε) (t : σ) : Prop :=
  exec step s es = some t

/-- Every step of the run is taken in a state where `cond` holds of its label. -/
def Meets (step : σ → ε → Option σ) (cond : σ → ε → Prop) : σ → List ε → Prop
  | _, [] => True
  | s, e :: es => cond s e ∧ ∀ t, step s e = some t → Meets step cond t es

/-- `P` holds in every state along the run. -/
def Throughout (step : σ → ε → Option σ) (P : σ → Prop) (s : σ) (es : List ε) : Prop :=
  ∀ es₁ es₂ u, es = es₁ ++ es₂ → Run step s es₁ u → P u

theorem exec_append (s : σ) (es fs : List ε) :
    exec step s (es ++ fs) = (exec step s es).bind fun t => exec step t fs := by
  induction es generalizing s with
  | nil => rfl
  | cons e es ih =>
      simp only [List.cons_append, exec]
      cases step s e with
      | none => rfl
      | some t => simpa using ih t

namespace Run

theorem nil_iff {s t : σ} : Run step s [] t ↔ t = s := by
  simp [Run, exec, eq_comm]

theorem cons_iff {s t : σ} {e : ε} {es : List ε} :
    Run step s (e :: es) t ↔ ∃ u, step s e = some u ∧ Run step u es t := by
  simp only [Run, exec, Option.bind_eq_some_iff]

theorem append_iff {s t : σ} {es fs : List ε} :
    Run step s (es ++ fs) t ↔ ∃ u, Run step s es u ∧ Run step u fs t := by
  simp only [Run, exec_append, Option.bind_eq_some_iff]

theorem snoc_iff {s t : σ} {es : List ε} {e : ε} :
    Run step s (es ++ [e]) t ↔ ∃ u, Run step s es u ∧ step u e = some t := by
  rw [append_iff]
  refine exists_congr fun u => and_congr_right fun _ => ?_
  rw [cons_iff]
  constructor
  · rintro ⟨w, taken, rest⟩
    rw [nil_iff] at rest
    exact rest ▸ taken
  · intro taken
    exact ⟨t, taken, rfl⟩

/-- A run has one end. -/
theorem unique {s t u : σ} {es : List ε} (run : Run step s es t) (other : Run step s es u) :
    t = u :=
  Option.some.inj (run.symm.trans other)

/-- What follows an initial part of a run. -/
theorem suffix {s t u : σ} {es fs : List ε} (run : Run step s (es ++ fs) t)
    (part : Run step s es u) : Run step u fs t := by
  obtain ⟨v, part', rest⟩ := append_iff.mp run
  have same : v = u := unique part' part
  rwa [same] at rest

/-- What follows the first step of a run. -/
theorem tail {s t u : σ} {e : ε} {es : List ε} (run : Run step s (e :: es) t)
    (taken : step s e = some u) : Run step u es t := by
  obtain ⟨v, taken', rest⟩ := cons_iff.mp run
  have same : v = u := Option.some.inj (taken'.symm.trans taken)
  rwa [same] at rest

/-- A run whose end has been computed. -/
theorem of_any {P : σ → Prop} [DecidablePred P] {s : σ} {es : List ε}
    (ends : (exec step s es).any fun t => P t) : ∃ t, Run step s es t ∧ P t := by
  obtain ⟨t, run, reached⟩ := (Option.any_eq_true _ _).mp ends
  exact ⟨t, run, of_decide_eq_true reached⟩

/-- If every label is enabled everywhere, every list of labels is a run. -/
theorem total (enabled : ∀ s e, ∃ t, step s e = some t) (s : σ) (es : List ε) :
    ∃ t, Run step s es t := by
  induction es generalizing s with
  | nil => exact ⟨s, nil_iff.mpr rfl⟩
  | cons e es ih =>
      obtain ⟨u, taken⟩ := enabled s e
      obtain ⟨t, run⟩ := ih u
      exact ⟨t, cons_iff.mpr ⟨u, taken, run⟩⟩

/-- Induction on the last step of a run; `P` may read the labels taken so far. -/
theorem history {P : List ε → σ → Prop} {s t : σ} {es : List ε}
    (start : P [] s)
    (preserved : ∀ es u e w, Run step s es u → P es u → step u e = some w → P (es ++ [e]) w)
    (run : Run step s es t) : P es t := by
  induction es using List.reverseRecOn generalizing t with
  | nil => exact nil_iff.mp run ▸ start
  | append_singleton es e ih =>
      obtain ⟨u, before, taken⟩ := snoc_iff.mp run
      exact preserved es u e t before (ih before) taken

/-- What holds at the start and is preserved by every step holds at the end. -/
theorem invariant {I : σ → Prop} {s t : σ} {es : List ε} (start : I s)
    (preserved : ∀ u e w, I u → step u e = some w → I w) (run : Run step s es t) : I t :=
  history (P := fun _ u => I u) start (fun _ u e w _ => preserved u e w) run

/-- A reflexive and transitive relation that holds across every step holds
across every run. -/
theorem relates {R : σ → σ → Prop} (refl : ∀ u, R u u)
    (trans : ∀ u w x, R u w → R w x → R u x)
    (across : ∀ u e w, step u e = some w → R u w) {s t : σ} {es : List ε}
    (run : Run step s es t) : R s t :=
  history (P := fun _ u => R s u) (refl s)
    (fun _ u e w _ before taken => trans s u w before (across u e w taken)) run

end Run

namespace Meets

variable {cond : σ → ε → Prop}

/-- A condition that can be decided in every state can be decided along a run. -/
def decidable [∀ s e, Decidable (cond s e)] :
    (s : σ) → (es : List ε) → Decidable (Meets step cond s es)
  | _, [] => .isTrue trivial
  | s, e :: es =>
      match taken : step s e with
      | none => decidable_of_iff (cond s e) (by simp [Meets, taken])
      | some t =>
          have := decidable t es
          decidable_of_iff (cond s e ∧ Meets step cond t es) (by simp [Meets, taken])

instance [∀ s e, Decidable (cond s e)] (s : σ) (es : List ε) : Decidable (Meets step cond s es) :=
  decidable s es

/-- A condition that always holds is met by every list of labels. -/
theorem of_forall (all : ∀ s e, cond s e) (s : σ) (es : List ε) : Meets step cond s es := by
  induction es generalizing s with
  | nil => trivial
  | cons e es ih => exact ⟨all s e, fun t _ => ih t⟩

theorem mono {weaker : σ → ε → Prop} (weakens : ∀ s e, cond s e → weaker s e) {s : σ}
    {es : List ε} (meets : Meets step cond s es) : Meets step weaker s es := by
  induction es generalizing s with
  | nil => trivial
  | cons e es ih => exact ⟨weakens s e meets.1, fun t taken => ih (meets.2 t taken)⟩

/-- Two conditions at once. -/
theorem both {other : σ → ε → Prop} {s : σ} {es : List ε} (meets : Meets step cond s es)
    (more : Meets step other s es) : Meets step (fun s e => cond s e ∧ other s e) s es := by
  induction es generalizing s with
  | nil => trivial
  | cons e es ih =>
      exact ⟨⟨meets.1, more.1⟩, fun t taken => ih (meets.2 t taken) (more.2 t taken)⟩

theorem append_iff {s : σ} {es fs : List ε} :
    Meets step cond s (es ++ fs) ↔
      Meets step cond s es ∧ ∀ u, Run step s es u → Meets step cond u fs := by
  induction es generalizing s with
  | nil => simp [Meets, Run, exec]
  | cons e es ih =>
      simp only [List.cons_append, Meets, ih, Run.cons_iff]
      constructor
      · rintro ⟨now, later⟩
        refine ⟨⟨now, fun t taken => (later t taken).1⟩, ?_⟩
        rintro u ⟨t, taken, run⟩
        exact (later t taken).2 u run
      · rintro ⟨⟨now, first⟩, rest⟩
        exact ⟨now, fun t taken => ⟨first t taken, fun u run => rest u ⟨t, taken, run⟩⟩⟩

theorem snoc_iff {s : σ} {es : List ε} {e : ε} :
    Meets step cond s (es ++ [e]) ↔
      Meets step cond s es ∧ ∀ u, Run step s es u → cond u e := by
  rw [append_iff]
  simp [Meets]

/-- The invariance rule for the runs whose steps all meet a condition. -/
theorem invariant {I : σ → Prop} {s t : σ} {es : List ε} (start : I s)
    (preserved : ∀ u e w, I u → cond u e → step u e = some w → I w)
    (meets : Meets step cond s es) (run : Run step s es t) : I t := by
  refine Run.history (P := fun es u => Meets step cond s es → I u) (fun _ => start) ?_ run meets
  intro es u e w before ih taken meets
  obtain ⟨earlier, last⟩ := snoc_iff.mp meets
  exact preserved u e w (ih earlier) (last u before) taken

end Meets

namespace Throughout

variable {P : σ → Prop}

theorem nil_iff {s : σ} : Throughout step P s [] ↔ P s := by
  constructor
  · intro all
    exact all [] [] s rfl (Run.nil_iff.mpr rfl)
  · intro start es₁ es₂ u split run
    obtain ⟨rfl, -⟩ := List.append_eq_nil_iff.mp split.symm
    exact Run.nil_iff.mp run ▸ start

theorem snoc_iff {s t : σ} {es : List ε} {e : ε} (run : Run step s (es ++ [e]) t) :
    Throughout step P s (es ++ [e]) ↔ Throughout step P s es ∧ P t := by
  constructor
  · intro all
    refine ⟨fun es₁ es₂ u split part => ?_, all (es ++ [e]) [] t (List.append_nil _).symm run⟩
    exact all es₁ (es₂ ++ [e]) u (by rw [split, List.append_assoc]) part
  · rintro ⟨earlier, last⟩ es₁ es₂ u split part
    rcases List.eq_nil_or_concat es₂ with rfl | ⟨es₃, f, rfl⟩
    · rw [List.append_nil] at split
      rw [← split] at part
      exact Run.unique run part ▸ last
    · rw [List.concat_eq_append, ← List.append_assoc] at split
      exact earlier es₁ es₃ u (List.append_inj' split rfl).1 part

/-- The exactness rule. If every step, from a state with the property, keeps it
exactly when the condition holds, then a run has the property throughout exactly
when all its steps meet the condition. The steps may be known to meet `pre`. -/
theorem iff_meets {cond pre : σ → ε → Prop} {s t : σ} {es : List ε} (start : P s)
    (exact_ : ∀ es u e v, Run step s es u → Meets step pre s es → P u → pre u e →
      step u e = some v → (P v ↔ cond u e))
    (meets : Meets step pre s es) (run : Run step s es t) :
    Throughout step P s es ↔ Meets step cond s es := by
  refine Run.history (P := fun es _ => Meets step pre s es →
    (Throughout step P s es ↔ Meets step cond s es)) ?_ ?_ run meets
  · intro _
    exact iff_of_true (nil_iff.mpr start) trivial
  · intro es u e v before ih taken meets
    obtain ⟨earlier, last⟩ := Meets.snoc_iff.mp meets
    rw [snoc_iff (Run.snoc_iff.mpr ⟨u, before, taken⟩), Meets.snoc_iff, ← ih earlier]
    refine and_congr_right fun all => ?_
    have now := all es [] u (List.append_nil es).symm before
    rw [exact_ es u e v before earlier now (last u before) taken]
    exact ⟨fun ok w other => Run.unique before other ▸ ok, fun ok => ok u before⟩

end Throughout

end Rfsis.Transition
