import Mathlib.Data.List.Nodup
import Mathlib.Data.List.Pairwise
import Mathlib.Data.List.Perm.Subperm
import Mathlib.Logic.Function.Iterate

/-!
# Work lists that grow

A list is worked off from the front, and each of its elements adds further ones at
the end (`next`). Nothing keeps an element from coming up again, so the work may
go on for ever.

All that is done and all that is still to do is named by the start or by something
that is done (`run_eq`), element for element. So the work ends without a repetition
exactly if no element is named twice (`once_iff`); that it ends at all then needs
that only finitely many elements are named.
-/

namespace RbiProxy

namespace WorkList

variable {U : Type} (next : U → List U)

/-- One element, from what is done and what is to do. -/
def step (r : List U × List U) : List U × List U :=
  match r.2 with
  | [] => r
  | u :: rest => (r.1 ++ [u], rest ++ next u)

def run (start : List U) (n : Nat) : List U × List U := (step next)^[n] ([], start)

variable {next} {start : List U}

theorem run_succ (n : Nat) : run next start (n + 1) = step next (run next start n) :=
  Function.iterate_succ_apply' _ _ _

/-- **What there is was named**, by the start or by something that is done. -/
theorem run_eq (n : Nat) :
    (run next start n).1 ++ (run next start n).2
      = start ++ (run next start n).1.flatMap next := by
  induction n with
  | zero => simp [run]
  | succ n ih =>
      rw [run_succ]
      unfold step
      split
      · exact ih
      · rename_i u rest htodo
        rw [htodo] at ih
        rw [List.flatMap_append, ← List.append_assoc start, ← ih]
        simp

/-- While there is something to do, each step does one element. -/
theorem length_done (n : Nat) :
    (run next start n).2 ≠ [] → (run next start n).1.length = n := by
  induction n with
  | zero => exact fun _ => rfl
  | succ n ih =>
      rw [run_succ]
      unfold step
      split
      · rename_i hnil
        exact fun h => absurd hnil h
      · rename_i u rest htodo
        intro _
        rw [List.length_append, ih (by simp [htodo])]
        rfl

/-! ## What is named -/

/-- The elements that come up. -/
inductive Named (next : U → List U) (start : List U) : U → Prop where
  | start {u : U} : u ∈ start → Named next start u
  | next {u v : U} : Named next start u → v ∈ next u → Named next start v

structure NamedOnce (next : U → List U) (start : List U) : Prop where
  nodup_start : start.Nodup
  nodup_next : ∀ u, Named next start u → (next u).Nodup
  fresh : ∀ u, Named next start u → ∀ v ∈ next u, v ∉ start
  unique : ∀ u u', Named next start u → Named next start u' → ∀ v ∈ next u, v ∈ next u' → u = u'

theorem named_of_mem_run (n : Nat) :
    ∀ u ∈ (run next start n).1 ++ (run next start n).2, Named next start u := by
  induction n with
  | zero => exact fun u hu => .start (by simpa [run] using hu)
  | succ n ih =>
      rw [run_succ]
      unfold step
      split
      · exact ih
      · rename_i u rest htodo
        rw [htodo] at ih
        intro v hv
        simp only [List.mem_append, List.mem_cons, List.not_mem_nil, or_false] at hv ih
        obtain (hv | rfl) | hv | hv := hv
        · exact ih v (.inl hv)
        · exact ih v (.inr (.inl rfl))
        · exact ih v (.inr (.inr hv))
        · exact .next (ih u (.inr (.inl rfl))) hv

/-- At the end everything that is named is done. -/
theorem mem_of_named {n : Nat} (hend : (run next start n).2 = []) {u : U}
    (hu : Named next start u) : u ∈ (run next start n).1 := by
  have heq := @run_eq U next start n
  rw [hend, List.append_nil] at heq
  induction hu with
  | start hu =>
      rw [heq]
      exact List.mem_append_left _ hu
  | next _ hv ih =>
      rw [heq]
      exact List.mem_append_right _ (List.mem_flatMap.mpr ⟨_, ih, hv⟩)

/-- A list of named elements names nothing twice. -/
theorem NamedOnce.nodup (h : NamedOnce next start) {done : List U} (hdone : done.Nodup)
    (hnamed : ∀ u ∈ done, Named next start u) : (start ++ done.flatMap next).Nodup := by
  rw [List.nodup_append]
  refine ⟨h.nodup_start, List.nodup_flatMap.mpr ⟨fun u hu => h.nodup_next u (hnamed u hu), ?_⟩, ?_⟩
  · refine hdone.imp_of_mem ?_
    intro u u' hu hu' hne v hv hv'
    exact hne (h.unique u u' (hnamed u hu) (hnamed u' hu') v hv hv')
  · intro v hv w hw heq
    obtain ⟨u, hu, hw⟩ := List.mem_flatMap.mp hw
    exact h.fresh u (hnamed u hu) w hw (heq ▸ hv)

theorem NamedOnce.nodup_run (h : NamedOnce next start) (n : Nat) :
    ((run next start n).1 ++ (run next start n).2).Nodup := by
  induction n with
  | zero => simpa [run] using h.nodup_start
  | succ n ih =>
      have hdone : (run next start (n + 1)).1.Nodup := by
        rw [run_succ]
        unfold step
        split
        · exact ih.of_append_left
        · rename_i u rest htodo
          rw [htodo, List.append_cons] at ih
          exact ih.of_append_left
      rw [run_eq]
      exact h.nodup hdone fun u hu => named_of_mem_run (n + 1) u (List.mem_append_left _ hu)

/-- **The work ends, with no element done twice, exactly if none is named twice.**
All elements that are named are in the list `all`. -/
theorem once_iff {all : List U} (hall : ∀ u, Named next start u → u ∈ all) :
    (∃ n, (run next start n).2 = [] ∧ (run next start n).1.Nodup) ↔ NamedOnce next start := by
  constructor
  · rintro ⟨n, hend, hdone⟩
    have heq := @run_eq U next start n
    rw [hend, List.append_nil] at heq
    have hnodup := hdone
    rw [heq, List.nodup_append, List.nodup_flatMap] at hnodup
    obtain ⟨hstart, ⟨hnext, hdisjoint⟩, hfresh⟩ := hnodup
    refine ⟨hstart, fun u hu => hnext u (mem_of_named hend hu), ?_, ?_⟩
    · intro u hu v hv hmem
      exact hfresh v hmem v (List.mem_flatMap.mpr ⟨u, mem_of_named hend hu, hv⟩) rfl
    · intro u u' hu hu' v hv hv'
      by_contra hne
      have hsymm : Std.Symm (Function.onFun List.Disjoint next) :=
        ⟨fun _ _ h _ hv hv' => h hv' hv⟩
      exact hdisjoint.forall (mem_of_named hend hu) (mem_of_named hend hu') hne hv hv'
  · intro h
    have hend : (run next start (all.length + 1)).2 = [] := by
      by_contra htodo
      have hnodup := h.nodup_run (all.length + 1)
      have hsub : (run next start (all.length + 1)).1 ⊆ all := fun u hu =>
        hall u (named_of_mem_run _ u (List.mem_append_left _ hu))
      have hle := (List.subperm_of_subset hnodup.of_append_left hsub).length_le
      rw [length_done _ htodo] at hle
      omega
    exact ⟨all.length + 1, hend, (h.nodup_run _).of_append_left⟩

end WorkList

end RbiProxy
