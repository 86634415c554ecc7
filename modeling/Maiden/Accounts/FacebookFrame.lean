import Maiden.Accounts.FacebookIdentity
import Maiden.Models.Identity

/-!
# What a Facebook login makes of a user who was there before

A login through Facebook should give a known user new tokens and a new time of last login,
and leave the rest of the row as it is. `createUserFromFacebook` builds a fresh user
object, copies seven columns of the stored row into it and writes it as a whole, on both ways
to find the user. The four columns that are in neither group get the defaults of a new user:
the password is emptied, the rights of an administrator, a deactivation and a pending password
reset are gone (`ownData_userRow`).

`facebookLogin_keeps_iff` says for which rows this makes no difference.
-/

namespace Maiden

/-- The columns of a user row that are the account's own data. -/
structure OwnData where
  userName : JString
  email : JString
  password : JString
  admin : Bool
  deactivated : Bool
  resetCode : Option JString
  isPrivate : Bool
  contactable : Bool
  createdAt : Option Int
deriving DecidableEq

def User.ownData (u : User) : OwnData where
  userName := u.userName
  email := u.email
  password := u.password
  admin := u.admin
  deactivated := u.deactivated
  resetCode := u.resetCode
  isPrivate := u.isPrivate
  contactable := u.contactable
  createdAt := u.createdAt

/-- The row is still there, with the data it had. -/
def KeepsOwnData (users : Users) (x : User) : Prop :=
  ∃ x', users.table.get x.id = some x' ∧ x'.ownData = x.ownData

/-- The login comes to write the user's row: Facebook gives both names, and the database takes
the row. -/
def FacebookLogin.WritesUser (site : Site) (db : Accounts) (l : FacebookLogin) (x : User) : Prop :=
  ∃ firstName lastName, l.firstName = some firstName ∧ l.lastName = some lastName ∧
    db.users.Admits
      (l.userRow (site.unicode.toLowerCase (firstName ++ jc '.' :: lastName)) (some x))

/-- The columns that the login resets have the values of a new user's. -/
def HasDefaults (x : User) : Prop :=
  x.password = [] ∧ x.admin = false ∧ x.deactivated = false ∧ x.resetCode = none

instance (x : User) : Decidable (HasDefaults x) := inferInstanceAs (Decidable (_ ∧ _))

section

variable {site : Site} {db : Accounts} {l : FacebookLogin} {x : User}

/-- The users after a login that writes its user, whatever becomes of the rest of it. -/
theorem users_create_of_writes (hx : l.existingUser db = some x)
    (h : l.WritesUser site db x) :
    ∃ username, (l.create site db).1.users.table =
      (upsert db.users.table (l.userRow username (some x)) l.now).1 := by
  obtain ⟨firstName, lastName, hfirst, hlast, hadmits⟩ := h
  obtain ⟨users, hsave⟩ := Users.save_of_admits hadmits l.now
  refine ⟨_, Eq.trans ?_ (Users.save_eq_ok hsave).2.1⟩
  unfold FacebookLogin.create FacebookLogin.createUser
  rw [hfirst, hlast, hx]
  dsimp only
  rw [hsave]
  dsimp only
  generalize l.saveProfile firstName lastName db.profiles _ = result
  obtain ⟨profiles, outcome⟩ := result
  cases outcome with
  | error e => rfl
  | ok =>
    dsimp only
    split <;> rfl

/-- The users after a login that does not. -/
theorem users_create_of_not_writes (hx : l.existingUser db = some x)
    (h : ¬ l.WritesUser site db x) : (l.create site db).1.users = db.users := by
  unfold FacebookLogin.create FacebookLogin.createUser
  cases hfirst : l.firstName with
  | none => rfl
  | some firstName =>
    cases hlast : l.lastName with
    | none => rfl
    | some lastName =>
      rw [hx]
      dsimp only
      cases hsave : db.users.save (l.userRow
          (site.unicode.toLowerCase (firstName ++ jc '.' :: lastName)) (some x)) l.now with
      | error e => rfl
      | ok saved =>
        exact absurd ⟨firstName, lastName, hfirst, hlast, (Users.save_eq_ok hsave).1⟩ h

/-- The row as it is written: the copied columns, and the defaults for the others. -/
theorem ownData_userRow (username : JString) {created : Int} (h : x.createdAt = some created) :
    (stamped (l.userRow username (some x)) l.now).ownData =
      { x.ownData with
          password := [], admin := false, deactivated := false, resetCode := none } := by
  show OwnData.mk _ _ _ _ _ _ _ _ (some (x.createdAt.getD l.now)) = _
  rw [h]
  exact congrArg (OwnData.mk _ _ _ _ _ _ _ _) h.symm

theorem hasDefaults_iff : HasDefaults x ↔
    { x.ownData with password := [], admin := false, deactivated := false, resetCode := none } =
      x.ownData := by
  simp only [HasDefaults, OwnData.mk.injEq, User.ownData, true_and, and_true]
  constructor
  · rintro ⟨hp, ha, hd, hr⟩
    exact ⟨hp.symm, ha.symm, hd.symm, hr.symm⟩
  · rintro ⟨hp, ha, hd, hr⟩
    exact ⟨hp.symm, ha.symm, hd.symm, hr.symm⟩

/-- **What a Facebook login keeps.** For every store, every login and every user that it finds,
by the Facebook id or by the email: the row keeps its own data if and only if its password is
empty, it is neither an administrator's nor deactivated and has no reset code, or the login
does not come to write it. -/
theorem facebookLogin_keeps_iff (hx : l.existingUser db = some x)
    (hcreated : x.createdAt.isSome = true) :
    KeepsOwnData (l.create site db).1.users x ↔ HasDefaults x ∨ ¬ l.WritesUser site db x := by
  have hmem := existingUser_mem hx
  obtain ⟨created, hcreated⟩ := Option.isSome_iff_exists.mp hcreated
  by_cases hwrites : l.WritesUser site db x
  · obtain ⟨username, htable⟩ := users_create_of_writes hx hwrites
    -- the whole row is written, with the defaults in the columns that the login does not set
    have hkey : Keyed.key (l.userRow username (some x)) = Keyed.key x := rfl
    have hget : (l.create site db).1.users.table.get x.id =
        some (stamped (l.userRow username (some x)) l.now) := by
      rw [htable]
      exact Table.get_eq_some_iff.mpr ⟨(mem_upsert_stored hmem hkey).mpr (Or.inl rfl), rfl⟩
    rw [or_iff_left (not_not_intro hwrites), hasDefaults_iff, ← ownData_userRow username hcreated]
    constructor
    · rintro ⟨x', hx', hkeeps⟩
      rwa [Option.some.inj (hget.symm.trans hx')]
    · exact fun hkeeps => ⟨_, hget, hkeeps⟩
  · refine iff_of_true ⟨x, ?_, rfl⟩ (Or.inr hwrites)
    rw [users_create_of_not_writes hx hwrites]
    exact Table.get_eq_some_iff.mpr ⟨hmem, rfl⟩

end

/-- Ann Lee at Facebook, at a given time and with given tokens. -/
def annAtFacebook (token : JString) (now : Int) : FacebookLogin where
  token := token
  id := js ['9']
  firstName := some (js ['A', 'n', 'n'])
  lastName := some (js ['L', 'e', 'e'])
  email := some (js ['a', '@', 'b', '.', 'c', 'o'])
  bio := none
  about := none
  location := none
  json := []
  accessToken := token
  secretKey := token
  now := now

/-- A user whom Facebook brought, who comes back with new tokens. -/
theorem facebookLogin_keeps_again :
    ∃ x, (annAtFacebook (js ['v']) 8).existingUser
        ((annAtFacebook (js ['u']) 7).create plainSite Accounts.empty).1 = some x ∧
      KeepsOwnData ((annAtFacebook (js ['v']) 8).create plainSite
        ((annAtFacebook (js ['u']) 7).create plainSite Accounts.empty).1).1.users x := by
  refine ⟨_, rfl, (facebookLogin_keeps_iff rfl ?_).mpr (Or.inl ?_)⟩
  · decide
  · decide

/-- Ann has registered with a password and then comes through Facebook: the row has lost it. -/
theorem password_emptied :
    ∃ x, (annAtFacebook (js ['u']) 7).existingUser annRegistered = some x ∧
      x.password = js ['p', 'a', 's', 's'] ∧
      ((annAtFacebook (js ['u']) 7).create plainSite annRegistered).1.users.table.get x.id =
        some { x with
          password := []
          accessToken := js ['u']
          secretKey := js ['u']
          lastLogin := some 7
          updatedAt := some 7 } ∧
      ¬ KeepsOwnData ((annAtFacebook (js ['u']) 7).create plainSite annRegistered).1.users x := by
  have hafter : ((annAtFacebook (js ['u']) 7).create plainSite annRegistered).1.users.table.get 1 =
      some { id := 1, userName := js ['a', 'n', 'n'], email := js ['a', '@', 'b', '.', 'c', 'o']
             accessToken := js ['u'], secretKey := js ['u'], lastLogin := some 7
             createdAt := some 0, updatedAt := some 7 } := by decide
  refine ⟨{ id := 1, userName := js ['a', 'n', 'n'], password := js ['p', 'a', 's', 's']
            email := js ['a', '@', 'b', '.', 'c', 'o'], accessToken := js ['t']
            secretKey := js ['k'], createdAt := some 0, updatedAt := some 0 },
    by decide, rfl, hafter, ?_⟩
  rintro ⟨x', hx', hkeeps⟩
  obtain rfl := Option.some.inj (hafter.symm.trans hx')
  exact absurd (congrArg OwnData.password hkeeps) (by decide)

end Maiden
