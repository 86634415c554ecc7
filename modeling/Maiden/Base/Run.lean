import Mathlib.Logic.Basic
import Mathlib.Data.List.Basic

/-!
# Runs of a labelled step function

A system is a partial step function `step : S → L → Option S`: `step s l` is the
state after label `l`, or `none` when `l` cannot happen in `s`. A run is the
list of its labels. Three things are said about a run:

- `exec`: the state it ends in;
- `Meets C`: every step it takes meets the condition `C` in the state *before*
  the step;
- `Throughout P`: `P` holds in every state it goes through, both ends included;

and `trace` collects the events the steps emit. The induction over runs is done
once, here: `invariant_of_meets` (an invariant that good steps keep),
`throughout_iff_meets` (a property kept by exactly the good steps) and
`trace_invariant` (an invariant that also speaks about the past).
-/

namespace Maiden.Run

universe u v w

variable {S : Type u} {L : Type v} {E : Type w}

/-- The state a run ends in; `none` when one of its steps is not enabled. -/
def exec (step : S → L → Option S) : S → List L → Option S
  | s, [] => some s
  | s, l :: ls =>
    match step s l with
    | none => none
    | some s' => exec step s' ls

/-- Every step the run takes meets `C` in the state before it. -/
def Meets (step : S → L → Option S) (C : S → L → Prop) : S → List L → Prop
  | _, [] => True
  | s, l :: ls => ∀ s', step s l = some s' → C s l ∧ Meets step C s' ls

/-- `P` holds in every state the run goes through. -/
def Throughout (step : S → L → Option S) (P : S → Prop) : S → List L → Prop
  | s, [] => P s
  | s, l :: ls => P s ∧ ∀ s', step s l = some s' → Throughout step P s' ls

/-- The events emitted along the run, oldest first. -/
def trace (step : S → L → Option S) (ev : S → L → Option E) : S → List L → List E
  | _, [] => []
  | s, l :: ls =>
    match step s l with
    | none => []
    | some s' => (ev s l).toList ++ trace step ev s' ls

variable {step : S → L → Option S}

/-- A run that ends takes its first step and ends from there. -/
theorem exec_cons {s s' : S} {l : L} {ls : List L} :
    exec step s (l :: ls) = some s' ↔ ∃ m, step s l = some m ∧ exec step m ls = some s' := by
  show (match step s l with | none => none | some m => exec step m ls) = some s' ↔ _
  cases h : step s l with
  | none => simp
  | some m => simp

/-- A run in two parts. -/
theorem exec_append {s s' : S} {ls ls' : List L} :
    exec step s (ls ++ ls') = some s' ↔
      ∃ m, exec step s ls = some m ∧ exec step m ls' = some s' := by
  induction ls generalizing s with
  | nil =>
    show exec step s ls' = some s' ↔ ∃ m, some s = some m ∧ _
    simp
  | cons l ls ih =>
    rw [List.cons_append, exec_cons]
    simp only [ih, exec_cons]
    constructor
    · rintro ⟨m, hl, m', hls, hls'⟩
      exact ⟨m', ⟨m, hl, hls⟩, hls'⟩
    · rintro ⟨m', ⟨m, hl, hls⟩, hls'⟩
      exact ⟨m, hl, m', hls, hls'⟩

/-- A system that is never stuck has all its runs. -/
theorem exists_exec (h : ∀ s l, ∃ s', step s l = some s') (ls : List L) :
    ∀ s, ∃ s', exec step s ls = some s' := by
  induction ls with
  | nil => exact fun s => ⟨s, rfl⟩
  | cons l ls ih =>
    intro s
    obtain ⟨m, hm⟩ := h s l
    obtain ⟨s', hs'⟩ := ih m
    exact ⟨s', exec_cons.mpr ⟨m, hm, hs'⟩⟩

theorem Meets.head {C : S → L → Prop} {s m : S} {l : L} {ls : List L}
    (h : Meets step C s (l :: ls)) (hs : step s l = some m) : C s l :=
  (h m hs).1

theorem Meets.tail {C : S → L → Prop} {s m : S} {l : L} {ls : List L}
    (h : Meets step C s (l :: ls)) (hs : step s l = some m) : Meets step C m ls :=
  (h m hs).2

theorem Throughout.head {P : S → Prop} {s : S} {ls : List L} (h : Throughout step P s ls) :
    P s := by
  cases ls with
  | nil => exact h
  | cons => exact h.1

theorem Throughout.last {P : S → Prop} {ls : List L} :
    ∀ {s s' : S}, Throughout step P s ls → exec step s ls = some s' → P s' := by
  induction ls with
  | nil =>
    intro s s' h hex
    cases hex
    exact h
  | cons l ls ih =>
    intro s s' h hex
    obtain ⟨m, hm, hex⟩ := exec_cons.mp hex
    exact ih (h.2 m hm) hex

/-- Meeting a decidable condition is decided by running the run. -/
instance decidableMeets {C : S → L → Prop} [∀ s l, Decidable (C s l)] :
    ∀ s ls, Decidable (Meets step C s ls)
  | _, [] => isTrue trivial
  | s, l :: ls =>
    match h : step s l with
    | none => isTrue fun _ hm => nomatch h.symm.trans hm
    | some m =>
      have : Decidable (Meets step C m ls) := decidableMeets m ls
      decidable_of_iff (C s l ∧ Meets step C m ls)
        ⟨fun hc _ hm' => Option.some.inj (h.symm.trans hm') ▸ hc, fun hc => hc m h⟩

/-- Steps that always meet `C` make runs that meet it. -/
theorem meets_of_forall {C : S → L → Prop} {ls : List L} (h : ∀ l ∈ ls, ∀ s, C s l) :
    ∀ s, Meets step C s ls := by
  induction ls with
  | nil => exact fun _ => trivial
  | cons l ls ih =>
    intro s s' _
    exact ⟨h l List.mem_cons_self s, ih (fun l' hl' => h l' (List.mem_cons_of_mem l hl')) s'⟩

theorem Meets.and {C D : S → L → Prop} {ls : List L} :
    ∀ {s : S}, Meets step C s ls → Meets step D s ls →
      Meets step (fun s l => C s l ∧ D s l) s ls := by
  induction ls with
  | nil => exact fun _ _ => trivial
  | cons l ls ih =>
    intro s hC hD s' hs
    exact ⟨⟨hC.head hs, hD.head hs⟩, ih (hC.tail hs) (hD.tail hs)⟩

/-- **Invariant rule**: what the steps meeting `C` keep holds where a run whose
steps all meet `C` ends. -/
theorem invariant_of_meets {C : S → L → Prop} {I : S → Prop}
    (hI : ∀ s l s', step s l = some s' → C s l → I s → I s') {ls : List L} :
    ∀ {s s' : S}, I s → Meets step C s ls → exec step s ls = some s' → I s' := by
  induction ls with
  | nil =>
    intro s s' hs _ hex
    cases hex
    exact hs
  | cons l ls ih =>
    intro s s' hs hm hex
    obtain ⟨m, hstep, hrest⟩ := exec_cons.mp hex
    exact ih (hI s l m hstep (hm.head hstep) hs) (hm.tail hstep) hrest

/-- The invariant rule for the steps on the way. -/
theorem Meets.of_invariant {C D : S → L → Prop} {I : S → Prop}
    (hI : ∀ s l s', step s l = some s' → C s l → I s → I s')
    (hD : ∀ s l s', step s l = some s' → C s l → I s → D s l) {ls : List L} :
    ∀ {s : S}, I s → Meets step C s ls → Meets step D s ls := by
  induction ls with
  | nil => exact fun _ _ => trivial
  | cons l ls ih =>
    intro s hs hm m hstep
    have hC := hm.head hstep
    exact ⟨hD s l m hstep hC hs, ih (hI s l m hstep hC hs) (hm.tail hstep)⟩

/-- The invariant rule for the states on the way. -/
theorem throughout_of_meets {C : S → L → Prop} {I P : S → Prop}
    (hI : ∀ s l s', step s l = some s' → C s l → I s → I s') (hP : ∀ s, I s → P s)
    {ls : List L} : ∀ {s : S}, I s → Meets step C s ls → Throughout step P s ls := by
  induction ls with
  | nil => exact fun hs _ => hP _ hs
  | cons l ls ih =>
    intro s hs hm
    refine ⟨hP s hs, fun m hstep => ?_⟩
    exact ih (hI s l m hstep (hm.head hstep) hs) (hm.tail hstep)

/-- **Exactness rule**: if, under the invariant `I` of the steps in the domain
`D`, a step from a `P`-state leads to a `P`-state exactly when it meets `C`,
then a run stays in `P` exactly when all its steps meet `C`. -/
theorem throughout_iff_meets {C D : S → L → Prop} {I P : S → Prop}
    (hI : ∀ s l s', step s l = some s' → D s l → I s → I s')
    (hP : ∀ s l s', step s l = some s' → D s l → I s → P s → (P s' ↔ C s l))
    {ls : List L} : ∀ {s : S}, I s → P s → Meets step D s ls →
      (Throughout step P s ls ↔ Meets step C s ls) := by
  induction ls with
  | nil => exact fun _ hp _ => ⟨fun _ => trivial, fun _ => hp⟩
  | cons l ls ih =>
    intro s hs hp hd
    constructor
    · -- the state after the step is in `P`, so the step has met `C`
      rintro ⟨-, hrest⟩ m hstep
      have hm := hrest m hstep
      have hpm : P m := hm.head
      have hI' := hI s l m hstep (hd.head hstep) hs
      exact ⟨(hP s l m hstep (hd.head hstep) hs hp).mp hpm,
        (ih hI' hpm (hd.tail hstep)).mp hm⟩
    · intro hm
      refine ⟨hp, fun m hstep => ?_⟩
      have hpm := (hP s l m hstep (hd.head hstep) hs hp).mpr (hm.head hstep)
      exact (ih (hI s l m hstep (hd.head hstep) hs) hpm (hd.tail hstep)).mpr (hm.tail hstep)

theorem Throughout.imp {P Q : S → Prop} (h : ∀ s, P s → Q s) {ls : List L} :
    ∀ {s : S}, Throughout step P s ls → Throughout step Q s ls := by
  induction ls with
  | nil => exact fun hs => h _ hs
  | cons l ls ih => exact fun hs => ⟨h _ hs.1, fun m hm => ih (hs.2 m hm)⟩

theorem throughout_cons {P : S → Prop} {s m : S} {l : L} {ls : List L} (h : step s l = some m) :
    Throughout step P s (l :: ls) ↔ P s ∧ Throughout step P m ls := by
  refine and_congr_right fun _ => ⟨fun hm => hm m h, fun hm m' hm' => ?_⟩
  obtain rfl := Option.some.inj (h.symm.trans hm')
  exact hm

/-- A run that cannot go on. -/
theorem throughout_cons_of_none {P : S → Prop} {s : S} {l : L} {ls : List L}
    (h : step s l = none) : Throughout step P s (l :: ls) ↔ P s := by
  refine and_iff_left fun m hm => ?_
  rw [h] at hm
  cases hm

theorem meets_cons {C : S → L → Prop} {s m : S} {l : L} {ls : List L} (h : step s l = some m) :
    Meets step C s (l :: ls) ↔ C s l ∧ Meets step C m ls := by
  constructor
  · exact fun hm => hm m h
  · intro hm m' hm'
    cases h.symm.trans hm'
    exact hm

/-- **Outcome rule**: if, under the invariant `I` of the steps in the domain `D`, a step
leads to a `P`-state exactly when it starts in one and meets `C`, then a run ends in
`P` exactly when it starts in `P` and all its steps meet `C`. -/
theorem final_iff_meets {C D : S → L → Prop} {I P : S → Prop}
    (hI : ∀ s l s', step s l = some s' → D s l → I s → I s')
    (hP : ∀ s l s', step s l = some s' → D s l → I s → (P s' ↔ P s ∧ C s l))
    {ls : List L} : ∀ {s s' : S}, I s → Meets step D s ls → exec step s ls = some s' →
      (P s' ↔ P s ∧ Meets step C s ls) := by
  induction ls with
  | nil =>
    intro s s' _ _ hex
    cases hex
    exact ⟨fun hp => ⟨hp, trivial⟩, fun hp => hp.1⟩
  | cons l ls ih =>
    intro s s' hs hd hex
    obtain ⟨m, hstep, hrest⟩ := exec_cons.mp hex
    have hm := hI s l m hstep (hd.head hstep) hs
    rw [ih hm (hd.tail hstep) hrest, hP s l m hstep (hd.head hstep) hs, meets_cons hstep,
      and_assoc]

/-- **History rule**: an invariant about the events so far and the state. It is stated with events
`es` from before the run, which the induction makes longer. -/
theorem trace_invariant {C : S → L → Prop} {ev : S → L → Option E} {K : List E → S → Prop}
    (hK : ∀ es s l s', step s l = some s' → C s l → K es s → K (es ++ (ev s l).toList) s')
    {ls : List L} : ∀ {es : List E} {s s' : S}, K es s → Meets step C s ls →
      exec step s ls = some s' → K (es ++ trace step ev s ls) s' := by
  induction ls with
  | nil =>
    intro es s s' hs _ hex
    cases hex
    show K (es ++ []) s
    rw [List.append_nil]
    exact hs
  | cons l ls ih =>
    intro es s s' hs hm hex
    obtain ⟨m, hstep, hrest⟩ := exec_cons.mp hex
    have hnext := ih (hK es s l m hstep (hm.head hstep) hs) (hm.tail hstep) hrest
    have htrace : trace step ev s (l :: ls) = (ev s l).toList ++ trace step ev m ls := by
      show (match step s l with | none => [] | some m => _) = _
      rw [hstep]
    rw [htrace, ← List.append_assoc]
    exact hnext

end Maiden.Run
