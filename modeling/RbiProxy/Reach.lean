import Mathlib.Init

/-!
# Step systems and their reachable states

Concurrent components are modelled as *partial step functions*
`step : σ → α → Option σ`: an action names the thread that moves together
with every answer of the environment that the move depends on, and `none`
says that the action is not enabled. `Reach step ok s₀ s` holds when `s`
can be reached from `s₀` by enabled actions that all meet the side
condition `ok` in the state they are taken from; the unconditioned notion
is the instance `ok := anyStep`.

The one induction every safety result goes through is `Reach.invariant`.
`runs` is the executable counterpart, and `reach_of_runs` turns the
evaluation of a concrete action list into reachability.
-/

namespace RbiProxy

variable {σ α : Type}

/-- No side condition on the steps of a run. -/
def anyStep : σ → α → Prop := fun _ _ => True

/-- States reachable from `s₀` by steps that meet `ok`. -/
inductive Reach (step : σ → α → Option σ) (ok : σ → α → Prop) (s₀ : σ) : σ → Prop where
  | init : Reach step ok s₀ s₀
  | next {s s' : σ} {a : α} : Reach step ok s₀ s → ok s a → step s a = some s' →
      Reach step ok s₀ s'

namespace Reach

variable {step : σ → α → Option σ} {ok : σ → α → Prop} {s₀ s : σ}

/-- **The invariant rule.** What holds initially and is preserved by every
step that meets the side condition holds in every reachable state. -/
theorem invariant {Inv : σ → Prop} (hinit : Inv s₀)
    (hstep : ∀ {s s' a}, Inv s → ok s a → step s a = some s' → Inv s')
    (h : Reach step ok s₀ s) : Inv s := by
  induction h with
  | init => exact hinit
  | next _ hok hs ih => exact hstep ih hok hs

theorem trans {t : σ} (h : Reach step ok s₀ s) (h' : Reach step ok s t) : Reach step ok s₀ t := by
  induction h' with
  | init => exact h
  | next _ hok hs ih => exact .next ih hok hs

end Reach

/-- Run a list of actions, checking the side condition before each. -/
def runs (step : σ → α → Option σ) (ok : σ → α → Bool) : List α → σ → Option σ
  | [], s => some s
  | a :: as, s => if ok s a then (step s a).bind (runs step ok as) else none

/-- A concrete run that evaluates to `s` shows `s` reachable. -/
theorem reach_of_runs {step : σ → α → Option σ} {okb : σ → α → Bool}
    {ok : σ → α → Prop} (hok : ∀ {s a}, okb s a = true → ok s a) {s₀ : σ} :
    ∀ {as : List α} {s t : σ}, Reach step ok s₀ s → runs step okb as s = some t →
      Reach step ok s₀ t
  | [], s, t, hr, h => by
      obtain rfl : s = t := Option.some.inj h
      exact hr
  | a :: as, s, t, hr, h => by
      unfold runs at h
      split at h
      case isTrue ha =>
        obtain ⟨s', hs, hrest⟩ := Option.bind_eq_some_iff.mp h
        exact reach_of_runs hok (.next hr (hok ha) hs) hrest
      case isFalse => cases h

/-- A measure that no step raises and that some events lower bounds their number in a
run. -/
theorem runs_measure {step : σ → α → Option σ} {okb : σ → α → Bool} (work : σ → Nat)
    (counts : α → Bool)
    (hstep : ∀ {s a t}, step s a = some t → work t + (if counts a then 1 else 0) ≤ work s) :
    ∀ {as : List α} {s t : σ}, runs step okb as s = some t → work t + as.countP counts ≤ work s
  | [], s, t, h => by
      obtain rfl : s = t := Option.some.inj h
      exact Nat.le_refl _
  | a :: as, s, t, h => by
      unfold runs at h
      split at h
      case isTrue =>
        obtain ⟨u, hs, hrest⟩ := Option.bind_eq_some_iff.mp h
        have hfirst := hstep hs
        have hlater := runs_measure work counts hstep hrest
        rw [List.countP_cons]
        omega
      case isFalse => cases h

/-! ## Runs of total steps -/

/-- Every step of a run has a property, in the state it is taken from. -/
def eachStep (step : σ → α → σ) (P : σ → α → Prop) : List α → σ → Prop
  | [], _ => True
  | a :: as, s => P s a ∧ eachStep step P as (step s a)

/-- Two properties of steps agree along every run if they agree wherever an
invariant holds that such steps keep. -/
theorem eachStep_congr {step : σ → α → σ} {P Q : σ → α → Prop} (Inv : σ → Prop)
    (hkeep : ∀ s a, Inv s → P s a → Inv (step s a))
    (hiff : ∀ s a, Inv s → (P s a ↔ Q s a)) (as : List α) {s : σ} (hs : Inv s) :
    eachStep step P as s ↔ eachStep step Q as s := by
  induction as generalizing s with
  | nil => exact Iff.rfl
  | cons a as ih =>
      constructor
      · rintro ⟨hP, hrest⟩
        exact ⟨(hiff s a hs).mp hP, (ih (hkeep s a hs hP)).mp hrest⟩
      · rintro ⟨hQ, hrest⟩
        have hP := (hiff s a hs).mpr hQ
        exact ⟨hP, (ih (hkeep s a hs hP)).mpr hrest⟩

end RbiProxy
