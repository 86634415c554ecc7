import Maiden.Base.Run
import Mathlib.Algebra.BigOperators.Group.List.Basic
import Mathlib.Algebra.Ring.Nat
import Mathlib.Order.WellFounded

/-!
# Runs that come to an end

Two rules about a labelled step function whose working steps use something up.

- `countP_add_le`: a run has at most as many working steps as its first state has left, plus
  what the steps that bring new work have added. What a state has left may be measured by a
  bound on the states of the run (`P`), which then has to hold at its end only.
- `exists_exec_of_progress`: if in every state that is not at rest some step leads lower in
  a well-founded relation, then some run leads to rest.

`sum_map_set` is for systems of threads: one element of a list moves on.
-/

namespace Maiden

universe u v

/-- A sum over a list of which one element is replaced. -/
theorem sum_map_set {α : Type u} (f : α → Nat) {a b : α} {l : List α} :
    ∀ {i : Nat}, l[i]? = some a → ((l.set i b).map f).sum + f a = (l.map f).sum + f b := by
  induction l with
  | nil => exact fun h => nomatch h
  | cons x xs ih =>
    intro i h
    cases i with
    | zero =>
      cases h
      simp only [List.set_cons_zero, List.map_cons, List.sum_cons]
      omega
    | succ i =>
      have hrest := ih h
      simp only [List.set_cons_succ, List.map_cons, List.sum_cons]
      omega

namespace Run

variable {S : Type u} {L : Type v} {step : S → L → Option S}

/-- What holds at the end of a run, and before every step after which it holds, holds at
its start. -/
theorem of_exec {P : S → Prop} (hback : ∀ s l s', step s l = some s' → P s' → P s)
    {ls : List L} : ∀ {s s' : S}, exec step s ls = some s' → P s' → P s := by
  induction ls with
  | nil =>
    intro s s' hex hs
    cases hex
    exact hs
  | cons l ls ih =>
    intro s s' hex hs
    obtain ⟨m, hstep, hrest⟩ := exec_cons.mp hex
    exact hback s l m hstep (ih hrest hs)

/-- **Potential rule**: if every working step uses up some of what is left, and every other
step adds at most `c`, and that only if it brings work, then the working steps of a run are
bounded by what was left and what was brought. -/
theorem countP_add_le {works brings : L → Bool} {c : Nat} {left : S → Nat} {A : L → Prop}
    {P : S → Prop} (hback : ∀ s l s', step s l = some s' → P s' → P s)
    (h : ∀ s l s', step s l = some s' → A l → P s' →
      (if works l then 1 else 0) + left s' ≤ left s + if brings l then c else 0)
    {ls : List L} : ∀ {s s' : S}, (∀ l ∈ ls, A l) → exec step s ls = some s' → P s' →
      ls.countP works + left s' ≤ left s + c * ls.countP brings := by
  induction ls with
  | nil =>
    intro s s' _ hex _
    cases hex
    simp
  | cons l ls ih =>
    intro s s' hall hex hs
    obtain ⟨m, hstep, hrest⟩ := exec_cons.mp hex
    -- `P` is known of the end of the run, and is carried back to the state in the middle
    have hfirst := h s l m hstep (hall l List.mem_cons_self) (of_exec hback hrest hs)
    have hlater := ih (fun l' hl' => hall l' (List.mem_cons_of_mem l hl')) hrest hs
    have hcost : c * (if brings l then 1 else 0) = if brings l then c else 0 := by
      split <;> simp
    rw [List.countP_cons, List.countP_cons, Nat.mul_add, hcost]
    omega

/-- **Progress rule**: a system that can always go lower until it is at rest can come to
rest. -/
theorem exists_exec_of_progress {lower : S → S → Prop} (hwf : WellFounded lower)
    {rest : S → Prop} {good : L → Prop}
    (h : ∀ s, ¬ rest s → ∃ l s', good l ∧ step s l = some s' ∧ lower s' s) (s : S) :
    ∃ ls s', (∀ l ∈ ls, good l) ∧ exec step s ls = some s' ∧ rest s' := by
  induction s using hwf.induction with
  | _ s ih =>
    by_cases hrest : rest s
    · exact ⟨[], s, (fun _ hl => nomatch hl), rfl, hrest⟩
    · obtain ⟨l, m, hgood, hstep, hlower⟩ := h s hrest
      obtain ⟨ls, s', hgoods, hex, hs'⟩ := ih m hlower
      refine ⟨l :: ls, s', ?_, exec_cons.mpr ⟨m, hstep, hex⟩, hs'⟩
      intro l' hl'
      rcases List.mem_cons.mp hl' with rfl | hl'
      · exact hgood
      · exact hgoods l' hl'

end Run

end Maiden
