import Maiden.Models.Accounts

/-!
# Profiles remember the last value given

`Profile.createOrUpdate` writes the six texts of a user's profile; an empty argument keeps
what is stored. The database refuses a text that its column does not take, so a call
with one throws and changes nothing (`createOrUpdate_refused`); every other call leaves
the user with one row, each text of which is what the column keeps of the given one or, if that
is empty, the stored one (`createOrUpdate_taken`).

A column keeps a text as it is, but for blanks beyond its length, and what it has kept it takes
again as it is (`Varchar.store_of_store`): so writing a row back changes nothing, and a text
that is kept never becomes an empty one, which would read as "keep the stored one".

- `lastGiven`: the last non-empty value of a history;
- `Remembers`: the table against the calls taken so far; `Remembers.call_taken` is the step and
  `remembers_callAll` the run.
-/

namespace Maiden

open JString Profile Keyed

/-! ## The text columns -/

/-- No column is too short for a character, so a text that is not empty stays so. -/
theorem ProfileText.limit_pos (col : ProfileText) : 0 < col.limit := by
  cases col <;> decide

namespace Profile

@[simp] theorem text_kept (p : Profile) (col : ProfileText) :
    p.kept.text col = Varchar.kept col.limit (p.text col) :=
  text_withTexts ..

/-- An empty argument stands for none. -/
theorem text_updated (p given : Profile) (col : ProfileText) :
    (p.updated given).text col = orElse (given.text col) (p.text col) :=
  text_withTexts ..

theorem orElse_nil (v : JString) : orElse v [] = v := by
  show (if v ≠ [] then v else []) = v
  split
  · rfl
  · next h => exact (not_not.mp h).symm

theorem orElse_of_ne {v : JString} (h : v ≠ []) (stored : JString) : orElse v stored = v := if_pos h

/-- A text may be cut before or after it is chosen: the cut does not make it empty. -/
theorem kept_orElse {n : Nat} {given stored : JString} (hn : 0 < n)
    (hgiven : Varchar.accepts n given = true) (hstored : Varchar.kept n stored = stored) :
    Varchar.kept n (orElse given stored) = orElse (Varchar.kept n given) stored := by
  by_cases hv : given = []
  · rw [hv, Varchar.kept_nil]
    exact hstored
  · rw [orElse_of_ne hv, orElse_of_ne (mt (Varchar.kept_eq_nil_iff hn hgiven).mp hv)]

end Profile

/-! ## Calls -/

/-- A call of `createOrUpdate`, and the time of it. -/
structure ProfileCall where
  userId : Int
  firstName : JString
  lastName : JString
  tagline : JString := []
  bio : JString := []
  profilePicture : JString := []
  location : JString := []
  now : Int

namespace ProfileCall

/-- The row made of the arguments (`Profile.scala:56–58`). -/
def given (c : ProfileCall) : Profile where
  userId := c.userId
  firstName := c.firstName
  lastName := c.lastName
  tagline := c.tagline
  bio := c.bio
  profilePicture := c.profilePicture
  location := c.location
  createdAt := some c.now
  updatedAt := some c.now

/-- The argument for a column. -/
def text (c : ProfileCall) (col : ProfileText) : JString := c.given.text col

/-- Every argument is taken by its column. -/
def fits (c : ProfileCall) : Bool := c.given.fits

end ProfileCall

namespace Profile

/-- The call on the table; one that throws changes nothing. -/
def call (db : Table Profile) (c : ProfileCall) : Table Profile :=
  match createOrUpdate db c.given c.now with
  | .ok result => result.1
  | .error _ => db

/-- The calls, one after the other. -/
def callAll (db : Table Profile) (calls : List ProfileCall) : Table Profile := calls.foldl call db

theorem callAll_append (db : Table Profile) (calls : List ProfileCall) (c : ProfileCall) :
    callAll db (calls ++ [c]) = call (callAll db calls) c := by
  rw [callAll, callAll, List.foldl_append]
  rfl

/-! ## One call -/

/-- The row that the call hands to `upsert`. -/
def target (db : Table Profile) (c : ProfileCall) : Profile := merged db c.given

/-- What the table has for the user, the empty text if there is no row. -/
def stored (db : Table Profile) (userId : Int) (col : ProfileText) : JString :=
  ((getForUser db userId).map fun p => p.text col).getD []

variable {db : Table Profile} {c : ProfileCall}

/-- With one row for each user it does not matter which row the query returns first. -/
theorem getForUser_of_mem (hunique : UniqueColumn db Profile.userId) {p : Profile}
    (hp : p ∈ db.rows) : getForUser db p.userId = some p := by
  refine Table.fetchOne_of_unique hp (beq_self_eq_true _) fun r hr huser => ?_
  exact hunique r hr p hp (beq_iff_eq.mp huser)

/-- What a call wants to store: its own texts, and the stored ones where it has none. -/
theorem text_target (db : Table Profile) (c : ProfileCall) (col : ProfileText) :
    (target db c).text col = orElse (c.text col) (stored db c.userId col) := by
  have hgiven : c.given.userId = c.userId := rfl
  unfold target merged stored
  rw [hgiven]
  cases getForUser db c.userId with
  | none => exact (orElse_nil _).symm
  | some p => exact text_updated p c.given col

theorem userId_target (db : Table Profile) (c : ProfileCall) : (target db c).userId = c.userId :=
  userId_merged db c.given

/-- The row is new, or it takes the place of the user's stored row. -/
theorem id_target (hunique : UniqueColumn db Profile.userId) :
    ((target db c).id = 0 ∨ ∃ r ∈ db.rows, r.id = (target db c).id) ∧
      ∀ r ∈ db.rows, r.id = (target db c).id ↔ r.userId = c.userId := by
  have hgiven : c.given.userId = c.userId := rfl
  unfold target merged
  rw [hgiven]
  cases h : getForUser db c.userId with
  | none =>
    have hno : ∀ r ∈ db.rows, r.userId ≠ c.userId := fun r hr =>
      beq_eq_false_iff_ne.mp (Table.fetchOne_eq_none.mp h r hr)
    exact ⟨Or.inl rfl, fun r hr => ⟨fun h0 => absurd h0 (Table.key_ne_zero_of_mem hr),
      fun huser => absurd huser (hno r hr)⟩⟩
  | some p =>
    obtain ⟨hp, huser⟩ := mem_of_getForUser h
    refine ⟨Or.inr ⟨p, hp, rfl⟩, fun r hr => ⟨fun hid => ?_, fun hr' => ?_⟩⟩
    · rw [Table.eq_of_key_eq hr hp hid, huser]
    · rw [hunique r hr p hp (hr'.trans huser.symm)]
      rfl

/-- The stored texts are what their columns keep. -/
def AllKept (db : Table Profile) : Prop :=
  ∀ p ∈ db.rows, ∀ col : ProfileText, Varchar.store col.limit (p.text col) = some (p.text col)

/-- What is in a column can be written to it again and stays what it is. -/
theorem store_stored (h : AllKept db) (userId : Int) (col : ProfileText) :
    Varchar.store col.limit (stored db userId col) = some (stored db userId col) := by
  unfold stored
  cases hget : getForUser db userId with
  | none => exact Varchar.store_nil _
  | some p => exact h p (mem_of_getForUser hget).1 col

/-- The row is taken exactly if the arguments are: what stays has been stored before. -/
theorem fits_target (h : AllKept db) : (target db c).fits = true ↔ c.fits = true := by
  rw [ProfileCall.fits, fits_iff, fits_iff]
  refine forall_congr' fun col => ?_
  rw [text_target]
  by_cases hv : c.text col = []
  · have hempty : c.given.text col = [] := hv
    rw [hv, hempty, Varchar.accepts, Varchar.accepts, Varchar.store_nil]
    show (Varchar.store _ (stored db c.userId col)).isSome = true ↔ _
    rw [store_stored h]
    exact iff_of_true rfl rfl
  · rw [orElse_of_ne hv]
    rfl

/-- What the columns keep of the row: of each argument, and all of what stays. -/
theorem text_kept_target (h : AllKept db) (hc : c.fits = true) (col : ProfileText) :
    (target db c).kept.text col =
      orElse (Varchar.kept col.limit (c.text col)) (stored db c.userId col) := by
  rw [text_kept, text_target]
  exact kept_orElse col.limit_pos (fits_iff.mp hc col) (Varchar.kept_of_store (store_stored h _ _))

/-- A call with a text that its column refuses throws. -/
theorem createOrUpdate_refused (h : AllKept db) (hc : c.fits = false) :
    createOrUpdate db c.given c.now = .error .rejected := by
  refine if_neg fun hsave => ?_
  rw [Bool.and_eq_true] at hsave
  have hfits := (fits_target h).mp hsave.1
  rw [hc] at hfits
  exact Bool.false_ne_true hfits

/-- Any other call leaves one row for its user, with what the columns keep of every text it was
given and the stored ones where it was given none, and no other user's row is touched. -/
theorem createOrUpdate_taken (hunique : UniqueColumn db Profile.userId) (h : AllKept db)
    (hc : c.fits = true) :
    (∃ saved, createOrUpdate db c.given c.now = .ok (call db c, saved)) ∧
    ∃ row : Profile, row.userId = c.userId ∧
      (∀ col : ProfileText, row.text col =
        orElse (Varchar.kept col.limit (c.text col)) (stored db c.userId col)) ∧
      ∀ p, p ∈ (call db c).rows ↔ p = row ∨ (p ∈ db.rows ∧ p.userId ≠ c.userId) := by
  obtain ⟨hplace, hid⟩ := id_target (c := c) hunique
  have hok : createOrUpdate db c.given c.now =
      .ok ((upsert db (target db c).kept c.now).1, (upsert db (target db c) c.now).2) := by
    -- neither refusal can happen: the texts fit, and the only row of the user is the one that is
    -- replaced
    refine if_pos ?_
    rw [Bool.and_eq_true, List.all_eq_true]
    refine ⟨(fits_target h).mpr hc, fun r hr => ?_⟩
    have huser : (merged db c.given).userId = c.userId := userId_target db c
    rw [Bool.or_eq_true, beq_iff_eq, bne_iff_ne, huser]
    exact (Classical.em (r.userId = c.userId)).imp_left (hid r hr).mpr
  have hcall : call db c = (upsert db (target db c).kept c.now).1 := by
    rw [call, hok]
  refine ⟨⟨_, by rw [hcall]; exact hok⟩, (upsert db (target db c).kept c.now).2, ?_, fun col => ?_,
    fun p => ?_⟩
  · rw [saved_userId]
    exact userId_target db c
  · rw [upsert_saved (fun p : Profile => p.text col) (fun _ _ => by cases col <;> rfl)
      (fun _ _ _ => by cases col <;> rfl), text_kept_target h hc]
  · -- `target` has the id of the user's row, so leaving out that id leaves out that user
    rw [hcall, mem_upsert (a := (target db c).kept) hplace]
    refine or_congr_right (and_congr_right fun hp => not_congr (hid p hp))

end Profile

/-! ## Histories -/

/-- The last value that is not empty, or the empty one. -/
def lastGiven (values : List JString) : JString :=
  ((values.filter fun v => v ≠ []).getLast?).getD []

/-- The last value given is the newest, unless that is empty. -/
theorem lastGiven_append (values : List JString) (v : JString) :
    lastGiven (values ++ [v]) = orElse v (lastGiven values) := by
  unfold lastGiven
  by_cases hv : v = []
  · rw [List.filter_append, hv]
    simp [orElse]
  · rw [List.filter_append, orElse_of_ne hv]
    simp [hv]

/-- What the calls passed for a user and a column, as the column keeps it, oldest first. -/
def valuesFor (calls : List ProfileCall) (userId : Int) (col : ProfileText) : List JString :=
  (calls.filter fun c => c.userId == userId).map fun c => Varchar.kept col.limit (c.text col)

/-- A call adds to the values of its own user only. -/
theorem valuesFor_append (calls : List ProfileCall) (c : ProfileCall) (userId : Int)
    (col : ProfileText) :
    valuesFor (calls ++ [c]) userId col =
      valuesFor calls userId col ++
        if c.userId = userId then [Varchar.kept col.limit (c.text col)] else [] := by
  rw [valuesFor, valuesFor, List.filter_append, List.map_append]
  congr 1
  by_cases h : c.userId = userId <;> simp [h]

theorem valuesFor_eq_nil {calls : List ProfileCall} {userId : Int}
    (h : ¬ ∃ c ∈ calls, c.userId = userId) (col : ProfileText) :
    valuesFor calls userId col = [] := by
  refine List.map_eq_nil_iff.mpr (List.filter_eq_nil_iff.mpr fun c hc hp => ?_)
  exact h ⟨c, hc, beq_iff_eq.mp hp⟩

/-- The table holds what the calls that were taken have said. -/
structure Remembers (taken : List ProfileCall) (db : Table Profile) : Prop where
  unique : UniqueColumn db Profile.userId
  allKept : AllKept db
  named : ∀ userId, (∃ c ∈ taken, c.userId = userId) ↔ ∃ p ∈ db.rows, p.userId = userId
  texts : ∀ p ∈ db.rows, ∀ col, p.text col = lastGiven (valuesFor taken p.userId col)

theorem remembers_empty : Remembers [] Table.empty where
  unique := fun _ h => nomatch h
  allKept := fun _ h => nomatch h
  named := by simp
  texts := fun _ h => nomatch h

variable {taken : List ProfileCall} {db : Table Profile}

/-- A user without a row has not been named, so nothing was passed for it. -/
theorem Remembers.stored_eq (h : Remembers taken db) (userId : Int) (col : ProfileText) :
    stored db userId col = lastGiven (valuesFor taken userId col) := by
  unfold stored
  cases hget : getForUser db userId with
  | none =>
    have hno : ¬ ∃ c ∈ taken, c.userId = userId := by
      rw [h.named userId]
      rintro ⟨p, hp, rfl⟩
      rw [getForUser_of_mem h.unique hp] at hget
      cases hget
    rw [valuesFor_eq_nil hno]
    rfl
  | some p =>
    obtain ⟨hp, rfl⟩ := mem_of_getForUser hget
    exact h.texts p hp col

/-- **One call that is taken.** Its user's row then has, column by column, the last text given to
it: this call's if there is one, and otherwise what was stored, which was the last one before. -/
theorem Remembers.call_taken (h : Remembers taken db) {c : ProfileCall} (hc : c.fits = true) :
    Remembers (taken ++ [c]) (Profile.call db c) := by
  obtain ⟨-, saved, huser, htext, hmem⟩ := createOrUpdate_taken h.unique h.allKept hc
  have hsaved : ∀ col, saved.text col = lastGiven (valuesFor (taken ++ [c]) saved.userId col) := by
    intro col
    rw [htext col, h.stored_eq, huser, valuesFor_append, if_pos rfl, lastGiven_append]
  have hnamed : ∀ userId, (∃ c' ∈ taken ++ [c], c'.userId = userId) ↔
      (∃ c' ∈ taken, c'.userId = userId) ∨ c.userId = userId := by
    simp [or_and_right, exists_or]
  refine ⟨?_, ?_, fun userId => ?_, ?_⟩
  · intro p hp p' hp' heq
    -- of two rows at most one is new, and an old one is not of the call's user
    rcases (hmem p).mp hp with rfl | ⟨hp, hne⟩ <;> rcases (hmem p').mp hp' with rfl | ⟨hp', hne'⟩
    · rfl
    · exact absurd (heq.symm.trans huser) hne'
    · exact absurd (heq.trans huser) hne
    · exact h.unique p hp p' hp' heq
  · intro p hp
    rcases (hmem p).mp hp with rfl | ⟨hp, -⟩
    · -- what was stored is stored as it is, and so is what is kept of an argument
      intro col
      have hrow : p.text col = Varchar.kept col.limit ((target db c).text col) := by
        rw [htext col, ← text_kept_target h.allKept hc, text_kept]
      have htaken := fits_iff.mp ((fits_target h.allKept).mpr hc) col
      rw [hrow]
      exact Varchar.store_of_store (Varchar.store_kept htaken)
    · exact h.allKept p hp
  · rw [hnamed, h.named userId]
    constructor
    · rintro (⟨p, hp, rfl⟩ | rfl)
      · -- the row of an earlier call may have been replaced by this one
        by_cases hsame : p.userId = c.userId
        · exact ⟨saved, (hmem saved).mpr (Or.inl rfl), huser.trans hsame.symm⟩
        · exact ⟨p, (hmem p).mpr (Or.inr ⟨hp, hsame⟩), rfl⟩
      · exact ⟨saved, (hmem saved).mpr (Or.inl rfl), huser⟩
    · rintro ⟨p, hp, rfl⟩
      rcases (hmem p).mp hp with rfl | ⟨hp, -⟩
      · exact Or.inr huser.symm
      · exact Or.inl ⟨p, hp, rfl⟩
  · intro p hp col
    rcases (hmem p).mp hp with rfl | ⟨hp, hne⟩
    · exact hsaved col
    · rw [valuesFor_append, if_neg (Ne.symm hne), List.append_nil]
      exact h.texts p hp col

theorem call_refused (h : AllKept db) {c : ProfileCall} (hc : c.fits = false) :
    Profile.call db c = db := by
  rw [Profile.call, createOrUpdate_refused h hc]

/-- **Every run**: the table remembers the calls whose texts are taken. -/
theorem remembers_callAll (calls : List ProfileCall) :
    Remembers (calls.filter ProfileCall.fits) (callAll Table.empty calls) := by
  -- the newest call is the last, so the induction takes calls from the end
  induction calls using List.reverseRecOn with
  | nil => exact remembers_empty
  | append_singleton calls c ih =>
    rw [callAll_append, List.filter_append]
    cases hc : c.fits with
    | true =>
      rw [List.filter_cons_of_pos hc]
      exact ih.call_taken hc
    | false =>
      rw [List.filter_cons_of_neg (by simp [hc]), List.filter_nil, List.append_nil,
        call_refused ih.allKept hc]
      exact ih

/-- **Profiles remember the last value given.** After any calls from the empty table, the
table has exactly one row for each user named by a call whose texts the columns take and
no other row; each text of a row is what the column keeps of the last non-empty one that such
a call passed for the user and the column, or empty. The next call throws and changes nothing if
one of its texts is refused; otherwise it succeeds. No call changes the rows of other users. -/
theorem profiles_remember (calls : List ProfileCall) :
    (∀ userId, (∃ c ∈ calls, c.fits = true ∧ c.userId = userId) →
      ∃! p, p ∈ (callAll Table.empty calls).rows ∧ p.userId = userId) ∧
    (∀ p ∈ (callAll Table.empty calls).rows,
      (∃ c ∈ calls, c.fits = true ∧ c.userId = p.userId) ∧
      ∀ col, p.text col = lastGiven (valuesFor (calls.filter ProfileCall.fits) p.userId col)) ∧
    ∀ c : ProfileCall,
      (c.fits = false →
        createOrUpdate (callAll Table.empty calls) c.given c.now = .error .rejected ∧
        callAll Table.empty (calls ++ [c]) = callAll Table.empty calls) ∧
      (c.fits = true → ∃ saved,
        createOrUpdate (callAll Table.empty calls) c.given c.now =
          .ok (callAll Table.empty (calls ++ [c]), saved)) ∧
      ∀ p, p.userId ≠ c.userId →
        (p ∈ (callAll Table.empty (calls ++ [c])).rows ↔ p ∈ (callAll Table.empty calls).rows) := by
  have h := remembers_callAll calls
  have hnamed : ∀ userId, (∃ c ∈ calls, c.fits = true ∧ c.userId = userId) ↔
      ∃ c ∈ calls.filter ProfileCall.fits, c.userId = userId := by
    simp only [List.mem_filter, and_assoc, implies_true]
  refine ⟨fun userId hcall => ?_, fun p hp => ⟨?_, h.texts p hp⟩, fun c => ?_⟩
  · obtain ⟨p, hp, huser⟩ := (h.named userId).mp ((hnamed userId).mp hcall)
    exact ⟨p, ⟨hp, huser⟩, fun p' hp' => h.unique p' hp'.1 p hp (hp'.2.trans huser.symm)⟩
  · exact (hnamed p.userId).mpr ((h.named p.userId).mpr ⟨p, hp, rfl⟩)
  · rw [callAll_append]
    cases hc : c.fits with
    | false =>
      have hsame := call_refused h.allKept hc
      refine ⟨fun _ => ⟨createOrUpdate_refused h.allKept hc, hsame⟩, (nomatch ·), ?_⟩
      rw [hsame]
      exact fun _ _ => Iff.rfl
    | true =>
      obtain ⟨hok, row, huser, -, hmem⟩ := createOrUpdate_taken h.unique h.allKept hc
      refine ⟨(nomatch ·), fun _ => hok, fun p hne => ?_⟩
      rw [hmem p]
      constructor
      · rintro (rfl | ⟨hp, -⟩)
        · exact absurd huser hne
        · exact hp
      · exact fun hp => Or.inr ⟨hp, hne⟩

/-- A first name of 41 letters. -/
def longName : ProfileCall where
  userId := 7
  firstName := List.replicate 41 (jc 'a')
  lastName := []
  now := 0

/-- The user is named, but the column of the first name takes 40 characters only: the
call throws, and there is no row. -/
theorem named_without_row :
    (∃ c ∈ [longName], c.userId = 7) ∧ (callAll Table.empty [longName]).rows = [] := by
  decide

end Maiden
