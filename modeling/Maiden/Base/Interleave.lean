import Maiden.Base.Run

/-!
# Interleavings

The labels of a system belong to threads (`thread : L → T`). Two runs are interleavings of the
same steps when each thread takes its own steps in the same order (`SameSteps`). If steps of
different threads may be exchanged wherever an invariant holds (`Commutes`), all interleavings
of the same steps end alike (`exec_eq_of_sameSteps`), so that a run is as good as one in which
the threads are run one after the other.

The proof takes the first step of one run, finds it in the other, and moves it to the front
past the steps of other threads (`exec_move`).
-/

namespace Maiden.Run

universe u v w

variable {S : Type u} {L : Type v} {T : Type w} {step : S → L → Option S} {thread : L → T}
  {A : L → Prop} {I : S → Prop}

/-- Under `I`, steps from `A` of different threads may be exchanged, also when they are not
enabled. -/
def Commutes (step : S → L → Option S) (thread : L → T) (A : L → Prop) (I : S → Prop) : Prop :=
  ∀ s a b, I s → A a → A b → thread a ≠ thread b →
    (step s a).bind (step · b) = (step s b).bind (step · a)

theorem exec_cons_eq (s : S) (l : L) (ls : List L) :
    exec step s (l :: ls) = (step s l).bind fun m => exec step m ls := by
  rw [exec]
  cases step s l <;> rfl

/-- A step may be moved in front of the steps of other threads, past one of them after the
other. -/
theorem exec_move (hcomm : Commutes step thread A I)
    (hI : ∀ s l s', step s l = some s' → A l → I s → I s') {a : L} (ha : A a) {before : List L}
    (after : List L) (hbefore : ∀ l ∈ before, A l ∧ thread l ≠ thread a) :
    ∀ {s : S}, I s →
      exec step s (before ++ a :: after) = exec step s (a :: (before ++ after)) := by
  induction before with
  | nil => exact fun _ => rfl
  | cons b before ih =>
    intro s hs
    obtain ⟨hb, hne⟩ := hbefore b List.mem_cons_self
    have hrest : ∀ m, step s b = some m →
        exec step m (before ++ a :: after) = exec step m (a :: (before ++ after)) := fun m hm =>
      ih (fun l hl => hbefore l (List.mem_cons_of_mem b hl)) (hI s b m hm hb hs)
    calc exec step s (b :: before ++ a :: after)
        = (step s b).bind fun m => exec step m (before ++ a :: after) := exec_cons_eq ..
      _ = (step s b).bind fun m => exec step m (a :: (before ++ after)) :=
          Option.bind_congr fun m hm => hrest m hm
      _ = ((step s b).bind (step · a)).bind fun m => exec step m (before ++ after) := by
          rw [Option.bind_assoc]
          exact Option.bind_congr fun m _ => exec_cons_eq ..
      _ = ((step s a).bind (step · b)).bind fun m => exec step m (before ++ after) := by
          rw [hcomm s a b hs ha hb (Ne.symm hne)]
      _ = exec step s (a :: (b :: before ++ after)) := by
          rw [Option.bind_assoc, exec_cons_eq]
          exact Option.bind_congr fun m _ => (exec_cons_eq ..).symm

variable [DecidableEq T]

/-- The steps of one thread. -/
def stepsOf (thread : L → T) (t : T) (run : List L) : List L :=
  run.filter fun l => decide (thread l = t)

/-- Each thread takes the same steps in both runs. -/
def SameSteps (thread : L → T) (run run' : List L) : Prop :=
  ∀ t, stepsOf thread t run = stepsOf thread t run'

theorem SameSteps.mem_iff {run run' : List L} (h : SameSteps thread run run') {l : L} :
    l ∈ run ↔ l ∈ run' := by
  have hmem : ∀ ls : List L, l ∈ ls ↔ l ∈ stepsOf thread (thread l) ls := fun ls => by
    rw [stepsOf, List.mem_filter, decide_eq_true_eq, and_iff_left rfl]
  rw [hmem run, h, ← hmem]

/-- A step that comes first in one run comes first in its thread in the other. -/
theorem SameSteps.split {a : L} {run run' : List L} (h : SameSteps thread (a :: run) run') :
    ∃ before after, run' = before ++ a :: after ∧ (∀ l ∈ before, thread l ≠ thread a) ∧
      SameSteps thread run (before ++ after) := by
  have ha := h (thread a)
  unfold stepsOf at ha
  rw [List.filter_cons_of_pos (by simp)] at ha
  obtain ⟨before, after, rfl, hbefore, -, hafter⟩ := List.filter_eq_cons_iff.mp ha.symm
  simp only [decide_eq_true_eq] at hbefore
  refine ⟨before, after, rfl, hbefore, fun t => ?_⟩
  have ht := h t
  unfold stepsOf at ht ⊢
  rw [List.filter_append] at ht ⊢
  by_cases hta : thread a = t
  · -- before `a` there is nothing of its thread
    have hnil : before.filter (fun l => decide (thread l = t)) = [] := by
      rw [List.filter_eq_nil_iff]
      exact fun l hl => by simpa [← hta] using hbefore l hl
    rw [hnil, List.nil_append, ← hta]
    exact hafter.symm
  · rwa [List.filter_cons_of_neg (by simpa using hta),
      List.filter_cons_of_neg (by simpa using hta)] at ht

/-- **All interleavings end alike** if steps of different threads commute. The first step of one
run is moved to the front of the other, and then both go on from the same state. -/
theorem exec_eq_of_sameSteps (hcomm : Commutes step thread A I)
    (hI : ∀ s l s', step s l = some s' → A l → I s → I s') {run : List L} :
    ∀ {run' : List L} {s : S}, (∀ l ∈ run, A l) → SameSteps thread run run' → I s →
      exec step s run = exec step s run' := by
  induction run with
  | nil =>
    intro run' s _ hsame _
    cases run' with
    | nil => rfl
    | cons l run' => exact absurd (hsame.mem_iff.mpr List.mem_cons_self) List.not_mem_nil
  | cons a run ih =>
    intro run' s hA hsame hs
    have ha := hA a List.mem_cons_self
    have hA' : ∀ l ∈ run', A l := fun l hl => hA l (hsame.mem_iff.mpr hl)
    obtain ⟨before, after, rfl, hbefore, hrest⟩ := hsame.split
    rw [exec_move hcomm hI ha after (fun l hl =>
      ⟨hA' l (List.mem_append_left _ hl), hbefore l hl⟩) hs, exec_cons_eq, exec_cons_eq]
    refine Option.bind_congr fun m hm => ?_
    exact ih (fun l hl => hA l (List.mem_cons_of_mem a hl)) hrest (hI s a m hm ha hs)

end Maiden.Run
