import Maiden.Base.Varchar
import Maiden.Models.User

/-!
# The account tables

Users with their profiles and social accounts, as the database keeps them. The columns
have the limits of the migrations (`CreateUser`, `CreateProfile`, `AddSocialAccounts`):
a row that breaks one is refused, and the insert or update throws (`Base/Varchar.lean`
says what a column makes of a text). The limits of the
Users table (no two users share an email or an access token) are fields of `Users`, so
no later proof has to carry them along.

- `Users.save`: `Users.upsert` with the limits of the table;
- `SocialAccount.create` (`SocialAccount.scala:228–254`): links an account to a user, or,
  when the provider's uid is known already, *updates* the known account, whatever user
  it belongs to;
- `Profile.createOrUpdate` (`Profile.scala:38–66`).
-/

namespace Maiden

open JString

/-! ## Users -/

/-- The columns keep the texts of the row as they are. A text whose excess is blanks would be
cut, not refused, but none comes here: addresses and names are validated or from the user's
Facebook page, and the other texts are drawn. -/
def User.fits (u : User) : Bool :=
  Varchar.fits 32 u.userName && Varchar.fits 100 u.email && Varchar.fits 128 u.password &&
    Varchar.fits 128 u.accessToken && Varchar.fits 128 u.secretKey &&
    u.resetCode.all (Varchar.fits 128)

/-- The Users table, with the limits of its columns. -/
structure Users where
  table : Table User
  fits : ∀ u ∈ table.rows, u.fits = true
  email_unique : UniqueColumn table User.email
  accessToken_unique : UniqueColumn table User.accessToken

namespace Users

/-- The table before anybody registered. -/
def empty : Users :=
  ⟨Table.empty, fun _ h => (nomatch h), fun _ h => (nomatch h), fun _ h => (nomatch h)⟩

/-- The database takes the row: it fits, and no other user has its email or its access
token. -/
def Admits (us : Users) (u : User) : Prop :=
  u.fits = true ∧
    ∀ r ∈ us.table.rows, r.id ≠ u.id → r.email ≠ u.email ∧ r.accessToken ≠ u.accessToken

instance (us : Users) (u : User) : Decidable (us.Admits u) :=
  inferInstanceAs (Decidable (_ ∧ ∀ r ∈ us.table.rows, _))

theorem saved_email (tb : Table User) (u : User) (now : Int) :
    (upsert tb u now).2.email = u.email :=
  upsert_saved User.email (fun _ _ => rfl) (fun _ _ _ => rfl) tb u now

/-- `Users.upsert`. -/
def save (us : Users) (u : User) (now : Int) : Except Failure (Users × User) :=
  if h : us.Admits u then
    .ok
      ({ table := (upsert us.table u now).1
         fits := by
          intro r hr
          rcases mem_of_mem_upsert hr with rfl | ⟨hr, -⟩
          · rw [upsert_saved User.fits (fun _ _ => rfl) (fun _ _ _ => rfl)]
            exact h.1
          · exact us.fits r hr
         email_unique :=
          us.email_unique.upsert (saved_email us.table u now) fun r hr hne => (h.2 r hr hne).1
         accessToken_unique :=
          us.accessToken_unique.upsert
            (upsert_saved User.accessToken (fun _ _ => rfl) (fun _ _ _ => rfl) us.table u now)
            fun r hr hne => (h.2 r hr hne).2 },
       (upsert us.table u now).2)
  else .error .rejected

/-- A row that is saved was admitted, and the table is the upserted one. -/
theorem save_eq_ok {us us' : Users} {u saved : User} {now : Int}
    (h : us.save u now = .ok (us', saved)) :
    us.Admits u ∧ us'.table = (upsert us.table u now).1 ∧ saved = (upsert us.table u now).2 := by
  unfold save at h
  by_cases hadm : us.Admits u
  · rw [dif_pos hadm] at h
    cases h
    exact ⟨hadm, rfl, rfl⟩
  · rw [dif_neg hadm] at h
    cases h

theorem save_eq_error {us : Users} {u : User} {now : Int} {e : Failure}
    (h : us.save u now = .error e) : ¬ us.Admits u := by
  intro hadm
  unfold save at h
  rw [dif_pos hadm] at h
  cases h

/-- A stored row can be saved again, whatever its unlimited columns are set to. -/
theorem admits_of_mem {us : Users} {u u' : User} (hu : u ∈ us.table.rows) (hid : u'.id = u.id)
    (hemail : u'.email = u.email) (htoken : u'.accessToken = u.accessToken)
    (hfits : u'.fits = u.fits) : us.Admits u' := by
  refine ⟨hfits.trans (us.fits u hu), fun r hr hne => ⟨fun heq => hne ?_, fun heq => hne ?_⟩⟩
  · rw [us.email_unique r hr u hu (heq.trans hemail), hid]
  · rw [us.accessToken_unique r hr u hu (heq.trans htoken), hid]

/-- A new user is added under the next id. -/
theorem mem_save_new {us us' : Users} {u saved : User} {now : Int} (hid : u.id = 0)
    (h : us.save u now = .ok (us', saved)) :
    saved.id = us.table.nextKey ∧
      ∀ r, r ∈ us'.table.rows ↔ r ∈ us.table.rows ∨ r = saved := by
  obtain ⟨-, htable, rfl⟩ := save_eq_ok h
  rw [htable, upsert_new us.table now hid]
  exact ⟨rfl, fun r => Table.mem_insert⟩

/-- Everything that the constraints admit is written. -/
theorem save_of_admits {us : Users} {u : User} (h : us.Admits u) (now : Int) :
    ∃ us', us.save u now = .ok (us', (upsert us.table u now).2) := by
  unfold save
  rw [dif_pos h]
  exact ⟨_, rfl⟩

end Users

/-! ## Social accounts -/

/-- The providers `SocialAccount.create` knows; `identity` stands for an own password. -/
inductive Provider where
  | identity
  | facebook
  | google
deriving DecidableEq, Repr

/-- A row of the SocialAccounts table (`SocialAccount.scala:18–27`). -/
structure SocialAccount where
  id : Int := 0
  provider : Provider
  userId : Int
  uid : JString
  accessToken : JString
  secretKey : JString
  createdAt : Option Int
  updatedAt : Option Int
  extra : JString
deriving DecidableEq

instance : Stamped SocialAccount where
  key sa := sa.id
  withKey sa k := { sa with id := k }
  key_withKey _ _ := rfl
  createdAt sa := sa.createdAt
  stamp sa c m := { sa with createdAt := some c, updatedAt := some m }
  key_stamp _ _ _ := rfl

namespace SocialAccount

/-- The columns keep the texts of the row as they are. -/
def fits (sa : SocialAccount) : Bool :=
  Varchar.fits 255 sa.uid && Varchar.fits 1024 sa.accessToken && Varchar.fits 1024 sa.secretKey &&
    Varchar.fits 8192 sa.extra

/-- `SocialAccount.scala:53–59`. -/
def getByUid (db : Table SocialAccount) (provider : Provider) (uid : JString) :
    Option SocialAccount :=
  db.fetchOne fun sa => sa.uid == uid && sa.provider == provider

theorem getByUid_eq_some {db : Table SocialAccount} {provider : Provider} {uid : JString}
    {x : SocialAccount} (h : getByUid db provider uid = some x) :
    x ∈ db.rows ∧ x.provider = provider ∧ x.uid = uid := by
  obtain ⟨hmem, hp⟩ := Table.mem_of_fetchOne h
  rw [Bool.and_eq_true, beq_iff_eq, beq_iff_eq] at hp
  exact ⟨hmem, hp.2, hp.1⟩

/-- A uid that is not found is not there, with this provider. -/
theorem getByUid_eq_none {db : Table SocialAccount} {provider : Provider} {uid : JString}
    (h : getByUid db provider uid = none) {x : SocialAccount} (hx : x ∈ db.rows)
    (hprovider : x.provider = provider) : x.uid ≠ uid := by
  intro huid
  have hno := Table.fetchOne_eq_none.mp h x hx
  simp [hprovider, huid] at hno

/-- `SocialAccounts.upsert`. -/
def save (db : Table SocialAccount) (sa : SocialAccount) (now : Int) :
    Except Failure (Table SocialAccount × SocialAccount) :=
  if sa.fits then .ok (upsert db sa now) else .error .rejected

/-- The row that `create` saves. A known account keeps its user. -/
def linked (db : Table SocialAccount) (provider : Provider) (userId : Int)
    (uid accessToken secretKey extra : JString) (now : Int) : SocialAccount :=
  match getByUid db provider uid with
  | some x => { x with accessToken := accessToken, secretKey := secretKey }
  | none =>
    { provider, userId, uid, accessToken, secretKey, extra
      createdAt := some now, updatedAt := some now }

/-- `SocialAccount.scala:228–254`. -/
def create (db : Table SocialAccount) (provider : Provider) (userId : Int)
    (uid accessToken secretKey extra : JString) (now : Int) :
    Except Failure (Table SocialAccount × SocialAccount) :=
  save db (linked db provider userId uid accessToken secretKey extra now) now

theorem save_eq_ok {db db' : Table SocialAccount} {sa saved : SocialAccount} {now : Int}
    (h : save db sa now = .ok (db', saved)) :
    sa.fits = true ∧ db' = (upsert db sa now).1 ∧ saved = (upsert db sa now).2 := by
  unfold save at h
  by_cases hfits : sa.fits = true
  · rw [if_pos hfits] at h
    rw [Except.ok.inj h]
    exact ⟨hfits, rfl, rfl⟩
  · rw [if_neg hfits] at h
    cases h

theorem save_eq_error {db : Table SocialAccount} {sa : SocialAccount} {now : Int} {e : Failure}
    (h : save db sa now = .error e) : sa.fits ≠ true := by
  intro hfits
  unfold save at h
  rw [if_pos hfits] at h
  cases h

section

variable (db : Table SocialAccount) (provider : Provider) (userId : Int)
  (uid accessToken secretKey extra : JString) (now : Int)

@[simp] theorem linked_accessToken :
    (linked db provider userId uid accessToken secretKey extra now).accessToken = accessToken := by
  unfold linked
  cases getByUid db provider uid <;> rfl

@[simp] theorem linked_uid :
    (linked db provider userId uid accessToken secretKey extra now).uid = uid := by
  unfold linked
  cases hx : getByUid db provider uid with
  | none => rfl
  | some x => exact (getByUid_eq_some hx).2.2

@[simp] theorem linked_provider :
    (linked db provider userId uid accessToken secretKey extra now).provider = provider := by
  unfold linked
  cases hx : getByUid db provider uid with
  | none => rfl
  | some x => exact (getByUid_eq_some hx).2.1

/-- The owner of the row: the user given, unless the uid is known. -/
theorem linked_userId : (linked db provider userId uid accessToken secretKey extra now).userId =
    ((getByUid db provider uid).map SocialAccount.userId).getD userId := by
  unfold linked
  cases getByUid db provider uid <;> rfl

variable {db provider userId uid accessToken secretKey extra now}

/-- The row is new when the uid is. -/
theorem linked_id_of_none (h : getByUid db provider uid = none) :
    (linked db provider userId uid accessToken secretKey extra now).id = 0 := by
  unfold linked
  rw [h]

/-- The row is the known one when the uid is known. -/
theorem linked_id_of_some {x : SocialAccount} (h : getByUid db provider uid = some x) :
    (linked db provider userId uid accessToken secretKey extra now).id = x.id := by
  unfold linked
  rw [h]

/-- The row is new, or it is a stored one. -/
theorem linked_id : (linked db provider userId uid accessToken secretKey extra now).id = 0 ∨
    ∃ x ∈ db.rows, x.id = (linked db provider userId uid accessToken secretKey extra now).id := by
  cases hx : getByUid db provider uid with
  | none => exact Or.inl (linked_id_of_none hx)
  | some x => exact Or.inr ⟨x, (getByUid_eq_some hx).1, (linked_id_of_some hx).symm⟩

end

theorem saved_accessToken (db : Table SocialAccount) (sa : SocialAccount) (now : Int) :
    (upsert db sa now).2.accessToken = sa.accessToken :=
  upsert_saved SocialAccount.accessToken (fun _ _ => rfl) (fun _ _ _ => rfl) db sa now

theorem saved_uid (db : Table SocialAccount) (sa : SocialAccount) (now : Int) :
    (upsert db sa now).2.uid = sa.uid :=
  upsert_saved SocialAccount.uid (fun _ _ => rfl) (fun _ _ _ => rfl) db sa now

theorem saved_provider (db : Table SocialAccount) (sa : SocialAccount) (now : Int) :
    (upsert db sa now).2.provider = sa.provider :=
  upsert_saved SocialAccount.provider (fun _ _ => rfl) (fun _ _ _ => rfl) db sa now

theorem saved_userId (db : Table SocialAccount) (sa : SocialAccount) (now : Int) :
    (upsert db sa now).2.userId = sa.userId :=
  upsert_saved SocialAccount.userId (fun _ _ => rfl) (fun _ _ _ => rfl) db sa now

end SocialAccount

/-! ## Profiles -/

/-- A row of the Profiles table (`Profile.scala:11–21`). The code never writes a null into
the nullable columns. -/
structure Profile where
  id : Int := 0
  userId : Int
  firstName : JString
  lastName : JString
  tagline : JString := []
  bio : JString := []
  profilePicture : JString := []
  location : JString := []
  createdAt : Option Int
  updatedAt : Option Int
deriving DecidableEq

instance : Stamped Profile where
  key p := p.id
  withKey p k := { p with id := k }
  key_withKey _ _ := rfl
  createdAt p := p.createdAt
  stamp p c m := { p with createdAt := some c, updatedAt := some m }
  key_stamp _ _ _ := rfl

/-- The text columns of the Profiles table (`CreateProfile.scala`). -/
inductive ProfileText where
  | firstName | lastName | tagline | bio | profilePicture | location
deriving DecidableEq

/-- How many characters the column takes. -/
def ProfileText.limit : ProfileText → Nat
  | firstName => 40
  | lastName => 60
  | tagline => 128
  | bio => 2048
  | profilePicture => 512
  | location => 128

namespace Profile

/-- The text in a column of the row. -/
def text (p : Profile) : ProfileText → JString
  | .firstName => p.firstName
  | .lastName => p.lastName
  | .tagline => p.tagline
  | .bio => p.bio
  | .profilePicture => p.profilePicture
  | .location => p.location

/-- The row with another text in each column. -/
def withTexts (p : Profile) (f : ProfileText → JString) : Profile :=
  { p with
    firstName := f .firstName
    lastName := f .lastName
    tagline := f .tagline
    bio := f .bio
    profilePicture := f .profilePicture
    location := f .location }

@[simp] theorem text_withTexts (p : Profile) (f : ProfileText → JString) (col : ProfileText) :
    (p.withTexts f).text col = f col := by
  cases col <;> rfl

@[simp] theorem userId_withTexts (p : Profile) (f : ProfileText → JString) :
    (p.withTexts f).userId = p.userId := rfl

@[simp] theorem id_withTexts (p : Profile) (f : ProfileText → JString) :
    (p.withTexts f).id = p.id := rfl

/-- The columns take the texts of the row. -/
def fits (p : Profile) : Bool :=
  [ProfileText.firstName, .lastName, .tagline, .bio, .profilePicture, .location].all fun col =>
    Varchar.accepts col.limit (p.text col)

/-- What the columns keep of the row. -/
def kept (p : Profile) : Profile := p.withTexts fun col => Varchar.kept col.limit (p.text col)

/-- `Profile.scala:32–36`. -/
def getForUser (db : Table Profile) (userId : Int) : Option Profile :=
  db.fetchOne fun p => p.userId == userId

/-- `Profiles.upsert`. The column `user_id` is unique. The row is what the columns keep; the
object that the code goes on with has the texts as they were given. -/
def save (db : Table Profile) (p : Profile) (now : Int) :
    Except Failure (Table Profile × Profile) :=
  if p.fits && db.rows.all fun r => r.id == p.id || r.userId != p.userId then
    .ok ((upsert db p.kept now).1, (upsert db p now).2)
  else .error .rejected

/-- A field that is given replaces the stored one. -/
def orElse (given stored : JString) : JString := if given ≠ [] then given else stored

/-- The stored row after the assignments of `Profile.scala:46–52`. -/
def updated (p given : Profile) : Profile :=
  p.withTexts fun col => orElse (given.text col) (p.text col)

/-- The profile that `createOrUpdate` writes (`Profile.scala:42–60`). -/
def merged (db : Table Profile) (given : Profile) : Profile :=
  match getForUser db given.userId with
  | some p => p.updated given
  | none => given

/-- `Profile.scala:38–66`; `given` carries the arguments. -/
def createOrUpdate (db : Table Profile) (given : Profile) (now : Int) :
    Except Failure (Table Profile × Profile) :=
  save db (merged db given) now

/-- Every text column has a limit of its own, and a row fits if all of them do. -/
theorem fits_iff {p : Profile} :
    p.fits = true ↔ ∀ col : ProfileText, Varchar.accepts col.limit (p.text col) = true := by
  unfold fits
  rw [List.all_eq_true]
  exact ⟨fun h col => h col (by cases col <;> decide), fun h col _ => h col⟩

/-- The profile that is found belongs to the user that was asked for. -/
theorem mem_of_getForUser {db : Table Profile} {userId : Int} {p : Profile}
    (h : getForUser db userId = some p) : p ∈ db.rows ∧ p.userId = userId := by
  obtain ⟨hp, huser⟩ := Table.mem_of_fetchOne h
  exact ⟨hp, beq_iff_eq.mp huser⟩

/-- The profile is that of the user of the arguments, whether it was there before or not. -/
theorem userId_merged (db : Table Profile) (given : Profile) :
    (merged db given).userId = given.userId := by
  unfold merged
  cases h : getForUser db given.userId with
  | none => rfl
  | some p => exact (mem_of_getForUser h).2

theorem save_eq_ok {db db' : Table Profile} {p saved : Profile} {now : Int}
    (h : save db p now = .ok (db', saved)) :
    db' = (upsert db p.kept now).1 ∧ saved = (upsert db p now).2 := by
  unfold save at h
  split at h
  · have hboth := Except.ok.inj h
    exact ⟨congrArg Prod.fst hboth.symm, congrArg Prod.snd hboth.symm⟩
  · cases h

theorem saved_userId (db : Table Profile) (p : Profile) (now : Int) :
    (upsert db p now).2.userId = p.userId :=
  upsert_saved Profile.userId (fun _ _ => rfl) (fun _ _ _ => rfl) db p now

end Profile

/-! ## The store -/

/-- The tables that accounts are made of. -/
structure Accounts where
  users : Users
  friendlyIds : Table FriendlyId
  socialAccounts : Table SocialAccount
  profiles : Table Profile

/-- The store before anybody registered. -/
def Accounts.empty : Accounts := ⟨Users.empty, Table.empty, Table.empty, Table.empty⟩

/-- What the account code is configured with: the character tables and the salted
SHA-512 of `User.hashPassword`. -/
structure Site where
  unicode : Unicode
  hashPassword : JString → JString

/-- A site without salt, good enough to tell passwords apart. -/
def plainSite : Site := ⟨Unicode.ascii, id⟩

end Maiden
