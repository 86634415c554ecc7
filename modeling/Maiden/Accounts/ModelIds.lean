import Maiden.Accounts.FriendlyIds
import Maiden.Base.Run

/-!
# Friendly ids of other models can clash

The hashes of users cannot end in a dash and another user's id (`UserHash.eq_of_suffixed`).
Those of the other models can, since their slugs keep dashes: a name may already read like
the base of another row with an id behind it. `generate` looks for a clash of the base
alone, so the hash with the id behind it may be taken (`third_foo_is_ambiguous`).

`Unambiguous` is what the lookups need; one call keeps it exactly if it meets `SuffixFree`
(`unambiguous_generate`), and so a run does exactly if all its calls do (`modelIds_iff`).
-/

namespace Maiden

open JString FriendlyId

/-- No two rows of the model have the same hash, and each is found by its hash. -/
structure Unambiguous (model : JString) (db : Table FriendlyId) : Prop where
  unique : ∀ r ∈ db.rows, ∀ r' ∈ db.rows, r.model = model → r'.model = model →
    r.hash = r'.hash → r.modelId = r'.modelId
  found : ∀ r ∈ db.rows, r.model = model → getIdFromHash db model r.hash = some r.modelId

/-- If another row of the model has the hash that the name asks for, then no other row has
that hash with the id behind it. -/
def SuffixFree (U : Unicode) (model : JString) (db : Table FriendlyId) (c : GenerateCall) : Prop :=
  c.model = model → Clash U db model c.id c.baseName →
    ∀ r ∈ db.rows, r.model = model →
      r.hash = baseHash U (modelSlug U model c.baseName) ++ jc '-' :: ofInt c.id → r.modelId = c.id

/-- One call, as a step. -/
def generateStep (U : Unicode) (db : Table FriendlyId) (c : GenerateCall) :
    Option (Table FriendlyId) :=
  some (generate U db c.model c.id c.baseName c.now).1

variable {U : Unicode} {model : JString} {db : Table FriendlyId} {c : GenerateCall}

/-- Where hashes are not shared, the first row with a hash is the right one. -/
theorem Unambiguous.of_unique (h : ∀ r ∈ db.rows, ∀ r' ∈ db.rows, r.model = model →
    r'.model = model → r.hash = r'.hash → r.modelId = r'.modelId) : Unambiguous model db := by
  refine ⟨h, fun r hr hmodel => ?_⟩
  unfold getIdFromHash
  cases hf : db.fetchOne fun fi => fi.model == model && fi.hash == r.hash with
  | none =>
    have hno := Table.fetchOne_eq_none.mp hf r hr
    simp [hmodel] at hno
  | some r' =>
    obtain ⟨hr', hcols⟩ := Table.mem_of_fetchOne hf
    rw [Bool.and_eq_true, beq_iff_eq, beq_iff_eq] at hcols
    rw [Option.map_some, h r' hr' r hr hcols.1 hmodel hcols.2]

/-- The chosen hash is nobody else's exactly if the one with the id behind it is not, in
case it is needed. -/
theorem suffixFree_iff (hmodel : c.model = model) :
    SuffixFree U model db c ↔ ∀ r ∈ db.rows, r.model = model →
      r.hash = finalHash U db model c.id c.baseName → r.modelId = c.id := by
  unfold SuffixFree
  rcases finalHash_spec U db model c.id c.baseName with ⟨hclash, hfinal⟩ | ⟨hfree, hfinal⟩
  · rw [hfinal]
    exact ⟨fun h => h hmodel hclash, fun h _ _ => h⟩
  · refine iff_of_true (fun _ hclash => absurd hclash hfree) fun r hr hrmodel hhash => ?_
    by_contra hne
    exact hfree ⟨r, hr, hrmodel, hhash.trans hfinal, hne⟩

/-- **One call** keeps hashes unambiguous exactly if it meets the condition. Only the hash that the
call writes can be met by another row, and only by one of the same model. -/
theorem unambiguous_generate (hone : OneRow db) (h : Unambiguous model db) :
    Unambiguous model (generate U db c.model c.id c.baseName c.now).1 ↔
      SuffixFree U model db c := by
  have hmem := fun r => mem_generate U c.model c.id c.baseName c.now hone (r := r)
  by_cases hmodel : c.model = model
  · rw [suffixFree_iff hmodel]
    subst hmodel
    constructor
    · intro h' r hr hrmodel hhash
      by_contra hne
      -- the row stays, next to the new one
      refine hne ?_
      have hsame := h'.unique r ((hmem r).mpr (Or.inr ⟨hr, fun hcols => hne hcols.2⟩)) _
        ((hmem _).mpr (Or.inl rfl)) hrmodel (generate_model ..)
        (hhash.trans (generate_hash ..).symm)
      rwa [generate_modelId] at hsame
    · intro hfree
      refine .of_unique fun r hr r' hr' hrmodel hrmodel' hhash => ?_
      rcases (hmem r).mp hr with rfl | ⟨hr, -⟩ <;> rcases (hmem r').mp hr' with rfl | ⟨hr', -⟩
      · rfl
      · rw [generate_hash] at hhash
        rw [generate_modelId, hfree r' hr' hrmodel' hhash.symm]
      · rw [generate_hash] at hhash
        rw [generate_modelId, hfree r hr hrmodel hhash]
      · exact h.unique r hr r' hr' hrmodel hrmodel' hhash
  · -- a call for another model leaves the rows of this one alone
    have hold : ∀ r ∈ (generate U db c.model c.id c.baseName c.now).1.rows, r.model = model →
        r ∈ db.rows := by
      intro r hr hrmodel
      rcases (hmem r).mp hr with rfl | ⟨hr, -⟩
      · exact absurd ((generate_model ..).symm.trans hrmodel) hmodel
      · exact hr
    refine iff_of_true (.of_unique fun r hr r' hr' hrmodel hrmodel' => ?_)
      fun hc => absurd hc hmodel
    exact h.unique r (hold r hr hrmodel) r' (hold r' hr' hrmodel') hrmodel hrmodel'

/-- **When friendly ids are unambiguous.** Along a run of `generate` calls, for this and any
other models, from the empty table: no two ids of the model ever have the same hash and
every id that has one is found by it, if and only if each call that has to put the id
behind its hash finds the result unused by other ids. -/
theorem modelIds_iff (U : Unicode) (model : JString) (calls : List GenerateCall) :
    Run.Throughout (generateStep U) (Unambiguous model) Table.empty calls ↔
      Run.Meets (generateStep U) (SuffixFree U model) Table.empty calls := by
  have hempty : OneRow Table.empty := fun _ h => nomatch h
  refine Run.throughout_iff_meets (D := fun _ _ => True) (I := OneRow) ?_ ?_ hempty
    (.of_unique fun _ h => nomatch h) (Run.meets_of_forall (fun _ _ _ => trivial) _)
  · rintro db c _ ⟨⟩ - hone
    exact hone.generate U c.model c.id c.baseName c.now
  · rintro db c _ ⟨⟩ - hone h
    exact unambiguous_generate hone h

/-- Routes named foo, foo-3 and foo. -/
def threeFoos : List GenerateCall :=
  let route := js ['R', 'o', 'u', 't', 'e']
  [⟨route, 1, js ['f', 'o', 'o'], 0⟩, ⟨route, 2, js ['f', 'o', 'o', '-', '3'], 1⟩,
   ⟨route, 3, js ['f', 'o', 'o'], 2⟩]

/-- The third route has to have its id behind its hash, which gives the hash of the second:
looking it up finds the second route. -/
theorem third_foo_is_ambiguous :
    let db := generateAll Unicode.ascii Table.empty threeFoos
    (∃ r ∈ db.rows, r.modelId = 3 ∧ r.hash = js ['f', 'o', 'o', '-', '3']) ∧
      getIdFromHash db (js ['R', 'o', 'u', 't', 'e']) (js ['f', 'o', 'o', '-', '3']) = some 2 := by
  decide

end Maiden
