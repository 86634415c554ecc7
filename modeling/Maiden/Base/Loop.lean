import Mathlib.Tactic.Common

/-!
# Loops that throw

The body of an imperative loop takes a state to a state and may throw. What it has
written by then stays, so that a body is a function `σ → σ × Ending ε`: the state it
leaves, and how it ended. A `while` loop is run with fuel, and `running` is the ending of
a loop that is out of it.

- `forEach` and `whileDo`: the two loops;
- `forEach_induct`, `whileDo_induct`: what every pass keeps, the loop keeps, however it
  ends;
- `forEach_returns`, `whileDo_returns`: a loop returns if its passes do, one after the other;
- `forEach_collect`: what a loop that appends to a list has appended.
-/

namespace Maiden.Loop

universe u v w

/-- How a computation ended. -/
inductive Ending (ε : Type w) where
  | returned
  | threw (e : ε)
  /-- It ran out of fuel. -/
  | running
deriving DecidableEq

variable {σ : Type u} {α : Type v} {ε : Type w}

/-- `as.foreach(a => …)`. -/
def forEach (body : σ → α → σ × Ending ε) : σ → List α → σ × Ending ε
  | s, [] => (s, .returned)
  | s, a :: as =>
    match body s a with
    | (s', .returned) => forEach body s' as
    | r => r

/-- `while (test) …`, for at most `fuel` passes. -/
def whileDo (test : σ → Bool) (body : σ → σ × Ending ε) : Nat → σ → σ × Ending ε
  | 0, s => if test s then (s, .running) else (s, .returned)
  | fuel + 1, s =>
    if test s then
      match body s with
      | (s', .returned) => whileDo test body fuel s'
      | r => r
    else (s, .returned)

/-- What every pass keeps holds after the loop, also when a pass has thrown. -/
theorem forEach_induct {P : σ → Prop} {body : σ → α → σ × Ending ε} {as : List α}
    (hbody : ∀ s, ∀ a ∈ as, P s → P (body s a).1) : ∀ s, P s → P (forEach body s as).1 := by
  induction as with
  | nil => exact fun s hs => hs
  | cons a as ih =>
    intro s hs
    have hpass := hbody s a List.mem_cons_self hs
    unfold forEach
    split
    · next s' hs' =>
      rw [hs'] at hpass
      exact ih (fun s b hb => hbody s b (List.mem_cons_of_mem a hb)) s' hpass
    · exact hpass

/-- The loop goes on after a pass that returned. -/
theorem forEach_cons {body : σ → α → σ × Ending ε} {s s' : σ} {a : α} {as : List α}
    (h : body s a = (s', .returned)) : forEach body s (a :: as) = forEach body s' as := by
  rw [forEach, h]

/-- If the `i`-th pass returns and takes `P i` to `P (i + 1)`, the loop returns. -/
theorem forEach_returns {body : σ → α → σ × Ending ε} {as : List α} {P : Nat → σ → Prop}
    (hbody : ∀ (i : Nat) (hi : i < as.length) (s : σ), P i s →
      ∃ s', body s as[i] = (s', .returned) ∧ P (i + 1) s') :
    ∀ s, P 0 s → ∃ s', forEach body s as = (s', .returned) ∧ P as.length s' := by
  induction as generalizing P with
  | nil => exact fun s hs => ⟨s, rfl, hs⟩
  | cons a as ih =>
    intro s hs
    obtain ⟨s', hpass, hs'⟩ := hbody 0 (Nat.zero_lt_succ _) s hs
    rw [List.getElem_cons_zero] at hpass
    rw [forEach_cons hpass]
    exact ih (P := fun i => P (i + 1)) (fun i hi => hbody (i + 1) (Nat.succ_lt_succ hi)) s' hs'

/-- A loop that collects what its body returns has collected it for the elements up to the one
at which it stopped, and for all of them if it returned. -/
theorem forEach_collect {β : Type u} (f : α → Except ε β)
    {body : List β → α → List β × Ending ε} {out : List β} {as : List α} {r : List β × Ending ε}
    (hr : forEach body out as = r)
    (hok : ∀ out a b, f a = .ok b → body out a = (out ++ [b], .returned))
    (herror : ∀ out a e, f a = .error e → body out a = (out, .threw e)) :
    ∃ done rest collected, as = done ++ rest ∧
      List.Forall₂ (fun a b => f a = .ok b) done collected ∧
      r.1 = out ++ collected ∧ (r.2 = .returned → rest = []) := by
  subst hr
  induction as generalizing out with
  | nil => exact ⟨[], [], [], rfl, .nil, (List.append_nil out).symm, fun _ => rfl⟩
  | cons a as ih =>
    cases hf : f a with
    | ok b =>
      obtain ⟨done, rest, collected, hsplit, hdone, hout, hend⟩ := @ih (out ++ [b])
      rw [forEach_cons (hok out a b hf)]
      refine ⟨a :: done, rest, b :: collected, ?_, .cons hf hdone, ?_, hend⟩
      · rw [hsplit, List.cons_append]
      · rw [hout, List.append_assoc, List.singleton_append]
    | error e =>
      -- the loop stops here, and what follows was not looked at
      have hthrew : forEach body out (a :: as) = (out, .threw e) := by
        rw [forEach, herror out a e hf]
      rw [hthrew]
      exact ⟨[], a :: as, [], rfl, .nil, (List.append_nil out).symm, nofun⟩

/-- What every pass keeps holds after the loop, whatever its fuel and however it ends. -/
theorem whileDo_induct {P : σ → Prop} {test : σ → Bool} {body : σ → σ × Ending ε}
    (hbody : ∀ s, test s = true → P s → P (body s).1) (fuel : Nat) :
    ∀ s, P s → P (whileDo test body fuel s).1 := by
  induction fuel with
  | zero =>
    intro s hs
    unfold whileDo
    split <;> exact hs
  | succ fuel ih =>
    intro s hs
    unfold whileDo
    split
    · next htest =>
      have hpass := hbody s htest hs
      split
      · next s' hs' =>
        rw [hs'] at hpass
        exact ih s' hpass
      · -- the pass threw, and the loop ends with what it has left
        exact hpass
    · exact hs

/-- If the passes up to the `K`-th return and take `P k` to `P (k + 1)`, and the test fails then
and not before, the loop returns after `K` passes. -/
theorem whileDo_returns {test : σ → Bool} {body : σ → σ × Ending ε} {P : Nat → σ → Prop} {K : Nat}
    (hpass : ∀ k < K, ∀ s, P k s →
      test s = true ∧ ∃ s', body s = (s', .returned) ∧ P (k + 1) s')
    (hstop : ∀ s, P K s → test s = false) {fuel : Nat} (hfuel : K ≤ fuel) :
    ∀ s, P 0 s → ∃ s', whileDo test body fuel s = (s', .returned) ∧ P K s' := by
  induction K generalizing P fuel with
  | zero =>
    intro s hs
    refine ⟨s, ?_, hs⟩
    cases fuel with
    | zero => rw [whileDo, hstop s hs, if_neg Bool.false_ne_true]
    | succ fuel => rw [whileDo, hstop s hs, if_neg Bool.false_ne_true]
  | succ K ih =>
    intro s hs
    cases fuel with
    | zero => exact absurd hfuel (Nat.not_succ_le_zero K)
    | succ fuel =>
      obtain ⟨htest, s', hbody, hs'⟩ := hpass 0 (Nat.zero_lt_succ K) s hs
      rw [whileDo, if_pos htest, hbody]
      -- one pass is done: the rest is a loop of `K` passes from `P 1`
      exact ih (P := fun k => P (k + 1)) (fun k hk => hpass (k + 1) (Nat.succ_lt_succ hk)) hstop
        (Nat.le_of_succ_le_succ hfuel) s' hs'

end Maiden.Loop
