import Maiden.Common.Text
import Maiden.Models.Schema

/-!
# Friendly ids (`data/models/FriendlyId.scala`)

A row of the FriendlyIds table gives one row of another table, named by its model and
id, a readable hash. `generate` (`FriendlyId.scala:75–121`) makes the hash from a name:
the slug, cut to 30 units; with dots for dashes when the model is `User`, with dashes
for dots otherwise; with a dash behind it when it is all digits, so that it cannot be
taken for an id; and with the id behind it when another row of the model has the hash
already. `generateForUserName` (`FriendlyId.scala:46–72`) proposes a user name by nearly
the same rules, but leaves the dashes in.
-/

namespace Maiden

/-- A row of the FriendlyIds table (`FriendlyId.scala:11–18`). -/
structure FriendlyId where
  id : Int := 0
  model : JString
  modelId : Int
  hash : JString
  createdAt : Option Int
  updatedAt : Option Int
deriving DecidableEq

instance : Stamped FriendlyId where
  key fi := fi.id
  withKey fi k := { fi with id := k }
  key_withKey _ _ := rfl
  createdAt fi := fi.createdAt
  stamp fi c m := { fi with createdAt := some c, updatedAt := some m }
  key_stamp _ _ _ := rfl

namespace FriendlyId

open JString

/-- The model of the Users table. -/
def userModel : JString := js ['U', 's', 'e', 'r']

/-! ## Lookups -/

/-- `FriendlyId.scala:23–27`. -/
def getIdFromHash (db : Table FriendlyId) (model hash : JString) : Option Int :=
  (db.fetchOne fun fi => fi.model == model && fi.hash == hash).map FriendlyId.modelId

/-- The row a hash stands for; `m` is the model's table (`FriendlyId.scala:30–37`). -/
def get {β : Type} [Keyed β] (db : Table FriendlyId) (m : Table β) (model hash : JString) :
    Option β :=
  (db.fetchPair m fun fi mo =>
    fi.model == model && fi.hash == hash && Keyed.key mo == fi.modelId).map Prod.snd

/-! ## Hashes -/

/-- The slug of a name, cut to 30 units. -/
def cutSlug (U : Unicode) (baseName : JString) : JString :=
  let x := Text.slugify U baseName
  if x.length > 30 then x.take 30 else x

/-- The hash before collisions are looked at. Only the second branch strips dashes:
`reverse.dropWhile(_ == '-').reverse` binds to the `else` block. -/
def baseHash (U : Unicode) (slug : JString) : JString :=
  if slug.all U.isDigit then slug ++ [jc '-'] else stripTrailing (jc '-') slug

/-- `FriendlyId.scala:46–72`. The suffix is how often the hash is taken. -/
def generateForUserName (U : Unicode) (db : Table FriendlyId) (baseName : JString) : JString :=
  let base := baseHash U (cutSlug U baseName)
  -- the dashes are still in, while the hashes of users have dots for them
  let suffix := (db.fetch fun fi => fi.model == userModel && fi.hash == base).length
  if suffix = 0 then base else base ++ jc '-' :: toDecimal suffix

/-- The slug of a name in the alphabet of the model. -/
def modelSlug (U : Unicode) (model baseName : JString) : JString :=
  let s := cutSlug U baseName
  if model ≠ userModel then replaceChar (jc '.') (jc '-') s
  else replaceChar (jc '-') (jc '.') s

/-- The hash `generate` gives to the row `id` of the model. -/
def finalHash (U : Unicode) (db : Table FriendlyId) (model : JString) (id : Int)
    (baseName : JString) : JString :=
  let base := baseHash U (modelSlug U model baseName)
  match db.fetchOne fun fi => fi.model == model && fi.hash == base && fi.modelId != id with
  | some _ => base ++ jc '-' :: ofInt id
  | none => base

/-- The row `generate` saves: a new one, or in place of the model row's present one. -/
def entry (U : Unicode) (db : Table FriendlyId) (model : JString) (id : Int)
    (baseName : JString) (now : Int) : FriendlyId where
  id :=
    match db.fetchOne fun fi => fi.model == model && fi.modelId == id with
    | some x => x.id
    | none => 0
  model := model
  modelId := id
  hash := finalHash U db model id baseName
  createdAt := some now
  updatedAt := some now

/-- `FriendlyId.scala:75–121`. The database takes every such row: a hash has at most 51 units of
the 1024 in its column, and a model is the name of a class of the code, far below 128. -/
def generate (U : Unicode) (db : Table FriendlyId) (model : JString) (id : Int)
    (baseName : JString) (now : Int) : Table FriendlyId × FriendlyId :=
  upsert db (entry U db model id baseName now) now

theorem mem_slugify_of_mem_cutSlug {U : Unicode} {baseName : JString} {c : Nat}
    (h : c ∈ cutSlug U baseName) : c ∈ Text.slugify U baseName := by
  unfold cutSlug at h
  by_cases hlong : (Text.slugify U baseName).length > 30
  · rw [if_pos hlong] at h
    exact List.mem_of_mem_take h
  · rwa [if_neg hlong] at h

/-- Another row of the model has the hash that the name asks for. -/
def Clash (U : Unicode) (db : Table FriendlyId) (model : JString) (id : Int) (baseName : JString) :
    Prop :=
  ∃ fi ∈ db.rows, fi.model = model ∧ fi.hash = baseHash U (modelSlug U model baseName) ∧
    fi.modelId ≠ id

/-- The hash is the one that the name asks for, with the id behind it if there is a clash. -/
theorem finalHash_spec (U : Unicode) (db : Table FriendlyId) (model : JString) (id : Int)
    (baseName : JString) :
    (Clash U db model id baseName ∧ finalHash U db model id baseName =
      baseHash U (modelSlug U model baseName) ++ jc '-' :: ofInt id) ∨
    (¬ Clash U db model id baseName ∧
      finalHash U db model id baseName = baseHash U (modelSlug U model baseName)) := by
  cases hf : db.fetchOne fun fi => fi.model == model &&
      fi.hash == baseHash U (modelSlug U model baseName) && fi.modelId != id with
  | some x =>
    obtain ⟨hx, hcols⟩ := Table.mem_of_fetchOne hf
    rw [Bool.and_eq_true, Bool.and_eq_true, beq_iff_eq, beq_iff_eq, bne_iff_ne] at hcols
    refine Or.inl ⟨⟨x, hx, hcols.1.1, hcols.1.2, hcols.2⟩, ?_⟩
    simp only [finalHash, hf]
  | none =>
    refine Or.inr ⟨?_, by simp only [finalHash, hf]⟩
    rintro ⟨fi, hfi, hmodel, hhash, hne⟩
    have hno := Table.fetchOne_eq_none.mp hf fi hfi
    simp [hmodel, hhash, hne] at hno

/-! ## What `generate` changes -/

/-- No model row has two hashes. -/
def OneRow (db : Table FriendlyId) : Prop :=
  ∀ r ∈ db.rows, ∀ r' ∈ db.rows, r.model = r'.model → r.modelId = r'.modelId → r = r'

section

variable (U : Unicode) (db : Table FriendlyId) (model : JString) (id : Int) (baseName : JString)
  (now : Int)

@[simp] theorem generate_model : (generate U db model id baseName now).2.model = model :=
  upsert_saved FriendlyId.model (fun _ _ => rfl) (fun _ _ _ => rfl) _ _ _

@[simp] theorem generate_modelId : (generate U db model id baseName now).2.modelId = id :=
  upsert_saved FriendlyId.modelId (fun _ _ => rfl) (fun _ _ _ => rfl) _ _ _

@[simp] theorem generate_hash :
    (generate U db model id baseName now).2.hash = finalHash U db model id baseName :=
  upsert_saved FriendlyId.hash (fun _ _ => rfl) (fun _ _ _ => rfl) _ _ _

variable {db}

/-- **What `generate` does to the table**: it saves its row in place of the model row's
present one. -/
theorem mem_generate (h : OneRow db) {r : FriendlyId} :
    r ∈ (generate U db model id baseName now).1.rows ↔
      r = (generate U db model id baseName now).2 ∨
        (r ∈ db.rows ∧ ¬ (r.model = model ∧ r.modelId = id)) := by
  have hold : (entry U db model id baseName now).id = 0 ∨
      ∃ r₀ ∈ db.rows, r₀.id = (entry U db model id baseName now).id := by
    unfold entry
    cases hf : db.fetchOne fun fi => fi.model == model && fi.modelId == id with
    | none => exact Or.inl rfl
    | some x => exact Or.inr ⟨x, (Table.mem_of_fetchOne hf).1, rfl⟩
  refine (mem_upsert hold).trans (or_congr_right (and_congr_right fun hr => not_congr ?_))
  show r.id = (entry U db model id baseName now).id ↔ _
  unfold entry
  cases hf : db.fetchOne fun fi => fi.model == model && fi.modelId == id with
  | none =>
    -- no row of this model row yet, and the new one gets a key of its own
    have hno := Table.fetchOne_eq_none.mp hf r hr
    refine iff_of_false (Table.key_ne_zero_of_mem hr) ?_
    simpa using hno
  | some x =>
    obtain ⟨hx, hcol⟩ := Table.mem_of_fetchOne hf
    rw [Bool.and_eq_true, beq_iff_eq, beq_iff_eq] at hcol
    obtain ⟨hmodel, hid⟩ := hcol
    constructor
    · intro heq
      rw [Table.eq_of_key_eq hr hx heq]
      exact ⟨hmodel, hid⟩
    · rintro ⟨hmodel', hid'⟩
      rw [h r hr x hx (hmodel'.trans hmodel.symm) (hid'.trans hid.symm)]

/-- Replacing the row of an object keeps one row for each. -/
theorem OneRow.replace {db' : Table FriendlyId} (h : OneRow db) (row : FriendlyId)
    (hmem : ∀ r, r ∈ db'.rows ↔
      r = row ∨ (r ∈ db.rows ∧ ¬ (r.model = row.model ∧ r.modelId = row.modelId))) :
    OneRow db' := by
  intro r hr r' hr' hmodel hid
  rcases (hmem r).mp hr with rfl | ⟨hr, hne⟩
  · rcases (hmem r').mp hr' with rfl | ⟨-, hne'⟩
    · rfl
    · exact absurd ⟨hmodel.symm, hid.symm⟩ hne'
  · rcases (hmem r').mp hr' with rfl | ⟨hr', -⟩
    · exact absurd ⟨hmodel, hid⟩ hne
    · exact h r hr r' hr' hmodel hid

theorem OneRow.generate (h : OneRow db) :
    OneRow (FriendlyId.generate U db model id baseName now).1 := by
  refine h.replace (FriendlyId.generate U db model id baseName now).2 fun r => ?_
  rw [generate_model, generate_modelId]
  exact mem_generate U model id baseName now h

end

end FriendlyId

end Maiden
