import Mathlib.Data.List.Nodup
import Mathlib.Tactic.Common

/-!
# One-time codes

Codes are issued to owners and redeemed, and the history of both says which ones are good:
an owner's *latest* code, as long as it has not been redeemed (`Pending`). A code that was
redeemed, or followed by another one for the same owner, is `Used`.

When no code is issued twice (`Fair`), a code has one owner, so that issuing and redeeming
change what is pending for one owner alone (`pending_issue`, `pending_redeem`), a used code
is not pending (`Used.not_pending`), and it stays used (`Used.issue`, `Used.redeem`).
-/

namespace Maiden.OneTimeCode

universe u v

/-- What happens to codes. -/
inductive CodeEvent (Owner : Type u) (Code : Type v) where
  | issued (owner : Owner) (code : Code)
  | redeemed (code : Code)

variable {Owner : Type u} {Code : Type v} [DecidableEq Owner]

/-- The codes that were issued. Histories have the newest event first. -/
def codes : List (CodeEvent Owner Code) → List Code
  | [] => []
  | .issued _ code :: h => code :: codes h
  | .redeemed _ :: h => codes h

/-- The last code an owner was given. -/
def latest (owner : Owner) : List (CodeEvent Owner Code) → Option Code
  | [] => none
  | .issued owner' code :: h => if owner' = owner then some code else latest owner h
  | .redeemed _ :: h => latest owner h

/-- The code is good. -/
def Pending (h : List (CodeEvent Owner Code)) (owner : Owner) (code : Code) : Prop :=
  latest owner h = some code ∧ .redeemed code ∉ h

/-- The code was good once: it is redeemed, or its owner has a newer one. -/
def Used (h : List (CodeEvent Owner Code)) (code : Code) : Prop :=
  .redeemed code ∈ h ∨ ∃ owner, .issued owner code ∈ h ∧ latest owner h ≠ some code

/-- No code was issued twice, and only issued ones were redeemed. -/
structure Fair (h : List (CodeEvent Owner Code)) : Prop where
  nodup : (codes h).Nodup
  redeemed : ∀ code, .redeemed code ∈ h → code ∈ codes h

variable {h : List (CodeEvent Owner Code)} {owner owner' : Owner} {code code' : Code}

omit [DecidableEq Owner] in
/-- The codes of a history are those that were issued in it. -/
theorem mem_codes : code ∈ codes h ↔ ∃ owner, .issued owner code ∈ h := by
  induction h with
  | nil => simp [codes]
  | cons e h ih =>
    cases e with
    | issued o c =>
      rw [codes, List.mem_cons, ih]
      constructor
      · rintro (rfl | ⟨o', ho'⟩)
        · exact ⟨o, List.mem_cons_self⟩
        · exact ⟨o', List.mem_cons_of_mem _ ho'⟩
      · rintro ⟨o', ho'⟩
        rcases List.mem_cons.mp ho' with heq | ho'
        · cases heq
          exact Or.inl rfl
        · exact Or.inr ⟨o', ho'⟩
    | redeemed c =>
      rw [codes, ih]
      constructor
      · exact fun ⟨o, ho⟩ => ⟨o, List.mem_cons_of_mem _ ho⟩
      · rintro ⟨o, ho⟩
        rcases List.mem_cons.mp ho with heq | ho
        · cases heq
        · exact ⟨o, ho⟩

theorem mem_of_latest (hl : latest owner h = some code) : .issued owner code ∈ h := by
  induction h with
  | nil => cases hl
  | cons e h ih =>
    cases e with
    | issued o c =>
      unfold latest at hl
      split at hl
      · next ho =>
        cases hl
        rw [ho]
        exact List.mem_cons_self
      · exact List.mem_cons_of_mem _ (ih hl)
    | redeemed c => exact List.mem_cons_of_mem _ (ih hl)

omit [DecidableEq Owner] in
/-- A code has one owner, since it is issued only once. -/
theorem owner_unique (hnodup : (codes h).Nodup) (h₁ : .issued owner code ∈ h)
    (h₂ : .issued owner' code ∈ h) : owner = owner' := by
  induction h with
  | nil => cases h₁
  | cons e h ih =>
    cases e with
    | issued o c =>
      rw [codes, List.nodup_cons] at hnodup
      rcases List.mem_cons.mp h₁ with he₁ | hm₁
      · rcases List.mem_cons.mp h₂ with he₂ | hm₂
        · cases he₁
          cases he₂
          rfl
        · cases he₁
          exact (hnodup.1 (mem_codes.mpr ⟨owner', hm₂⟩)).elim
      · rcases List.mem_cons.mp h₂ with he₂ | hm₂
        · cases he₂
          exact (hnodup.1 (mem_codes.mpr ⟨owner, hm₁⟩)).elim
        · exact ih hnodup.2 hm₁ hm₂
    | redeemed c =>
      refine ih hnodup ?_ ?_
      · exact (List.mem_cons.mp h₁).resolve_left (fun heq => nomatch heq)
      · exact (List.mem_cons.mp h₂).resolve_left (fun heq => nomatch heq)

omit [DecidableEq Owner] in
theorem redeemed_mem_issue : (.redeemed code : CodeEvent Owner Code) ∈ .issued owner code' :: h ↔
    .redeemed code ∈ h := by
  rw [List.mem_cons]
  exact or_iff_right (fun heq => nomatch heq)

omit [DecidableEq Owner] in
theorem redeemed_mem_redeem : (.redeemed code : CodeEvent Owner Code) ∈ .redeemed code' :: h ↔
    code = code' ∨ .redeemed code ∈ h := by
  rw [List.mem_cons, CodeEvent.redeemed.injEq]

omit [DecidableEq Owner] in
theorem Fair.issue (hf : Fair h) (owner : Owner) (hfresh : code ∉ codes h) :
    Fair (.issued owner code :: h) := by
  refine ⟨List.nodup_cons.mpr ⟨hfresh, hf.nodup⟩, fun c hc => ?_⟩
  exact List.mem_cons_of_mem _ (hf.redeemed c (redeemed_mem_issue.mp hc))

omit [DecidableEq Owner] in
theorem Fair.redeem (hf : Fair h) (hcode : code ∈ codes h) : Fair (.redeemed code :: h) := by
  refine ⟨hf.nodup, fun c hc => ?_⟩
  rcases redeemed_mem_redeem.mp hc with rfl | hc
  · exact hcode
  · exact hf.redeemed c hc

/-- A pending code was issued to its owner, and to nobody else. -/
theorem Pending.owner_eq (hf : Fair h) (hp : Pending h owner code) (hp' : Pending h owner' code) :
    owner = owner' :=
  owner_unique hf.nodup (mem_of_latest hp.1) (mem_of_latest hp'.1)

theorem Pending.mem_codes (hp : Pending h owner code) : code ∈ codes h :=
  OneTimeCode.mem_codes.mpr ⟨owner, mem_of_latest hp.1⟩

/-- A new code is the one that is pending for its owner. -/
theorem pending_issue (hf : Fair h) (hfresh : code ∉ codes h) :
    Pending (.issued owner code :: h) owner' code' ↔
      if owner = owner' then code = code' else Pending h owner' code' := by
  unfold Pending
  rw [redeemed_mem_issue, latest]
  split
  · constructor
    · exact fun hp => Option.some.inj hp.1
    · rintro rfl
      exact ⟨rfl, fun hr => hfresh (hf.redeemed code hr)⟩
  · rfl

/-- A redeemed code is pending no more, and nothing else changes. -/
theorem pending_redeem (hf : Fair h) (hp : Pending h owner code) :
    Pending (.redeemed code :: h) owner' code' ↔ owner ≠ owner' ∧ Pending h owner' code' := by
  constructor
  · rintro ⟨hlatest, hnot⟩
    rw [redeemed_mem_redeem, not_or] at hnot
    refine ⟨?_, hlatest, hnot.2⟩
    rintro rfl
    exact hnot.1 (Option.some.inj (hlatest.symm.trans hp.1))
  · rintro ⟨hne, hp'⟩
    refine ⟨hp'.1, fun hr => ?_⟩
    rcases redeemed_mem_redeem.mp hr with rfl | hr
    · exact hne (hp.owner_eq hf hp')
    · exact hp'.2 hr

/-- A used code is not good. -/
theorem Used.not_pending (hf : Fair h) (hu : Used h code) : ¬ Pending h owner code := by
  rintro ⟨hlatest, hnot⟩
  rcases hu with hr | ⟨o, ho, hne⟩
  · exact hnot hr
  · obtain rfl := owner_unique hf.nodup ho (mem_of_latest hlatest)
    exact hne hlatest

/-- A used code stays used when another one is issued. -/
theorem Used.issue (hu : Used h code) (hfresh : code' ∉ codes h) :
    Used (.issued owner code' :: h) code := by
  rcases hu with hr | ⟨o, ho, hne⟩
  · exact Or.inl (redeemed_mem_issue.mpr hr)
  · refine Or.inr ⟨o, List.mem_cons_of_mem _ ho, ?_⟩
    rw [latest]
    split
    · rintro heq
      obtain rfl := Option.some.inj heq
      exact hfresh (OneTimeCode.mem_codes.mpr ⟨o, ho⟩)
    · exact hne

/-- A used code stays used when another one is redeemed. -/
theorem Used.redeem (hu : Used h code) : Used (.redeemed code' :: h) code := by
  rcases hu with hr | ⟨o, ho, hne⟩
  · exact Or.inl (List.mem_cons_of_mem _ hr)
  · exact Or.inr ⟨o, List.mem_cons_of_mem _ ho, hne⟩

end Maiden.OneTimeCode
