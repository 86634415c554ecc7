import Maiden.Base.Run
import Mathlib.Logic.Function.Basic

/-!
# Credentials

A store that gives each holder at most one credential is a partial map `K → Option V`. All that
may happen to it is that one holder is *rekeyed*: what it had is replaced by what the step has
issued for it, which is nothing when the step takes the credential away.

`held_iff` says what that means over a run in which the credential `v` is not issued again: it
is good for its holder at the end exactly if it was good at the start and nobody rekeyed the
holder on the way. So it is good for one unbroken stretch of the run, and for one holder.
-/

namespace Maiden.Credentials

universe u v w x

variable {S : Type u} {L : Type v} {K : Type w} {V : Type x} [DecidableEq K]

/-- The store after `target` was given what the step issued. -/
def rekey (target : Option K) (issued : Option V) (held : K → Option V) : K → Option V :=
  match target with
  | none => held
  | some k => Function.update held k issued

@[simp] theorem rekey_none (issued : Option V) (held : K → Option V) :
    rekey none issued held = held := rfl

theorem rekey_self (k : K) (issued : Option V) (held : K → Option V) :
    rekey (some k) issued held k = issued := by
  show Function.update held k issued k = issued
  exact Function.update_self ..

theorem rekey_of_ne {target : Option K} {k : K} (h : target ≠ some k) (issued : Option V)
    (held : K → Option V) : rekey target issued held k = held k := by
  cases target with
  | none => rfl
  | some k' =>
    have hne : k ≠ k' := fun heq => h (congrArg some heq.symm)
    show Function.update held k' issued k = held k
    exact Function.update_of_ne hne ..

/-- A step that does not issue `v` leaves it with the holders it does not rekey. -/
theorem rekey_eq_some_iff {target : Option K} {issued : Option V} {held : K → Option V} {k : K}
    {v : V} (hfresh : issued ≠ some v) :
    rekey target issued held k = some v ↔ held k = some v ∧ target ≠ some k := by
  by_cases htarget : target = some k
  · rw [htarget, rekey_self]
    exact iff_of_false hfresh fun h => h.2 rfl
  · rw [rekey_of_ne htarget]
    exact (and_iff_left htarget).symm

/-- **The life of a credential**: once it is not issued any more, a holder has it at the end
exactly if they had it at the start and no step has rekeyed them. -/
theorem held_iff {step : S → L → Option S} (held : S → K → Option V)
    {target : S → L → Option K} {issued : L → Option V}
    (hstep : ∀ s l s', step s l = some s' →
      held s' = rekey (target s l) (issued l) (held s)) {k : K} {v : V} {ls : List L} :
    ∀ {s s' : S}, Run.exec step s ls = some s' → (∀ l ∈ ls, issued l ≠ some v) →
      (held s' k = some v ↔
        held s k = some v ∧ Run.Meets step (fun s l => target s l ≠ some k) s ls) := by
  induction ls with
  | nil =>
    intro s s' hex _
    cases hex
    exact (and_iff_left trivial).symm
  | cons l ls ih =>
    intro s s' hex hfresh
    obtain ⟨m, hm, hrest⟩ := Run.exec_cons.mp hex
    -- one step: it may take the credential away, but it cannot bring it
    have hfirst : held m k = some v ↔ held s k = some v ∧ target s l ≠ some k := by
      rw [hstep s l m hm]
      exact rekey_eq_some_iff (hfresh l List.mem_cons_self)
    rw [ih hrest fun l' hl' => hfresh l' (List.mem_cons_of_mem l hl'), hfirst, and_assoc]
    refine and_congr_right fun _ => ⟨fun h m' hm' => ?_, fun h => h m hm⟩
    obtain rfl := Option.some.inj (hm.symm.trans hm')
    exact h

end Maiden.Credentials
