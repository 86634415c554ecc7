import Maiden.Base.Run
import Maiden.Models.Facebook

/-!
# Facebook identities that share a user

Two Facebook ids should lead to the same user only when their profiles carry the same
email. They do not: a profile without email is looked up, and stored, under the empty
string, so all of them share one user; and a user keeps the email of the first login,
so an id whose email has changed since meets whoever has the old one.

Which user an id leads to is decided at its first completed login, by the email given
then (`sameUser_iff`). So identities stay separate exactly when ids that first came with
the same email, a missing one counted as empty, always carry one and the same email
that is not missing (`facebookSeparate_iff`).
-/

namespace Maiden

/-! ## Logins and what they resolve to -/

/-- A completed login: the Facebook id, the email given, the user it resolved to. -/
structure Login where
  fbId : JString
  email : Option JString
  userId : Int
deriving DecidableEq

/-- One login. -/
def facebookStep (site : Site) (db : Accounts) (l : FacebookLogin) : Option Accounts :=
  some (l.create site db).1

/-- The login that is completed, if it is. -/
def facebookEvent (site : Site) (db : Accounts) (l : FacebookLogin) : Option Login :=
  (l.create site db).2.toOption.map fun sa => ⟨l.id, l.email, sa.userId⟩

/-- The completed logins of a run. -/
def logins (site : Site) (db : Accounts) (run : List FacebookLogin) : List Login :=
  Run.trace (facebookStep site) (facebookEvent site) db run

/-- Logins with different ids resolve to the same user only if both carry the same email,
and carry one. -/
def Separate (es : List Login) : Prop :=
  ∀ e ∈ es, ∀ e' ∈ es, e.fbId ≠ e'.fbId → e.userId = e'.userId →
    e.email = e'.email ∧ e.email.isSome

/-- The email of an id's first completed login; a missing one counts as empty. -/
def firstEmail (es : List Login) (fbId : JString) : Option JString :=
  (es.find? fun e => e.fbId == fbId).map fun e => e.email.getD []

/-- Ids that first came with the same email carry the same email in all their logins,
and carry one. -/
def EmailsTellApart (es : List Login) : Prop :=
  ∀ e ∈ es, ∀ e' ∈ es, e.fbId ≠ e'.fbId → firstEmail es e.fbId = firstEmail es e'.fbId →
    e.email = e'.email ∧ e.email.isSome

instance (es : List Login) : Decidable (Separate es) :=
  inferInstanceAs (Decidable (∀ e ∈ es, ∀ e' ∈ es, _))

instance (es : List Login) : Decidable (EmailsTellApart es) :=
  inferInstanceAs (Decidable (∀ e ∈ es, ∀ e' ∈ es, _))

/-- Later logins do not change the first one. -/
theorem firstEmail_append {es : List Login} {fbId mail : JString}
    (h : firstEmail es fbId = some mail) (e : Login) : firstEmail (es ++ [e]) fbId = some mail := by
  unfold firstEmail at h ⊢
  rw [List.find?_append]
  cases hf : es.find? fun e => e.fbId == fbId with
  | none =>
    rw [hf] at h
    cases h
  | some e₀ =>
    rw [hf] at h
    exact h

/-- The first login of an id that has not been there. -/
theorem firstEmail_new {es : List Login} {e : Login} (h : ∀ e' ∈ es, e'.fbId ≠ e.fbId) :
    firstEmail (es ++ [e]) e.fbId = some (e.email.getD []) := by
  have hnone : (es.find? fun e' => e'.fbId == e.fbId) = none :=
    List.find?_eq_none.mpr fun e' he' => by simpa using h e' he'
  unfold firstEmail
  rw [List.find?_append, hnone]
  simp

/-! ## What a login does -/

/-- Every user is still there, with the same email. -/
def UsersKept (us us' : Users) : Prop :=
  ∀ u ∈ us.table.rows, ∃ u' ∈ us'.table.rows, u'.id = u.id ∧ u'.email = u.email

theorem UsersKept.refl (us : Users) : UsersKept us us := fun u hu => ⟨u, hu, rfl, rfl⟩

/-- The effect of a login on users and accounts: it is refused, perhaps after its user was
written, or it is completed for the user `u`. -/
inductive LoginEffect (db : Accounts) (l : FacebookLogin) (db' : Accounts) :
    Option SocialAccount → Prop
  | refused (hkept : UsersKept db.users db'.users)
      (haccounts : db'.socialAccounts = db.socialAccounts) : LoginEffect db l db' none
  | completed {u : User} (hkept : UsersKept db.users db'.users) (hu : u ∈ db'.users.table.rows)
      (hold : ∀ x, l.existingUser db = some x → u.id = x.id ∧ u.email = x.email)
      (hnew : l.existingUser db = none → u.email = l.mail)
      (haccounts : db'.socialAccounts = (upsert db.socialAccounts
        (SocialAccount.linked db.socialAccounts .facebook u.id l.id l.token [] l.json l.now)
        l.now).1) :
      LoginEffect db l db' (some (upsert db.socialAccounts
        (SocialAccount.linked db.socialAccounts .facebook u.id l.id l.token [] l.json l.now)
        l.now).2)

section

variable {db : Accounts} {l : FacebookLogin}

theorem existingUser_mem {x : User} (h : l.existingUser db = some x) : x ∈ db.users.table.rows := by
  unfold FacebookLogin.existingUser at h
  cases ha : SocialAccount.getByUid db.socialAccounts .facebook l.id with
  | none =>
    rw [ha] at h
    exact (Table.mem_of_fetchOne h).1
  | some a =>
    rw [ha] at h
    exact Table.mem_of_get h

/-- Writing the user keeps everybody's id and email. -/
theorem userRow_save {username : JString} {users : Users} {u : User}
    (h : db.users.save (l.userRow username (l.existingUser db)) l.now = .ok (users, u)) :
    UsersKept db.users users ∧ u ∈ users.table.rows ∧
      (∀ x, l.existingUser db = some x → u.id = x.id ∧ u.email = x.email) ∧
      (l.existingUser db = none → u.email = l.mail) := by
  cases hx : l.existingUser db with
  | none =>
    rw [hx] at h
    obtain ⟨-, hmem⟩ := Users.mem_save_new rfl h
    obtain ⟨-, -, hu⟩ := Users.save_eq_ok h
    refine ⟨fun v hv => ⟨v, (hmem v).mpr (Or.inl hv), rfl, rfl⟩, (hmem u).mpr (Or.inr rfl),
      fun x hsome => (nomatch hsome), fun _ => ?_⟩
    rw [hu, Users.saved_email]
    rfl
  | some x =>
    rw [hx] at h
    have hmemx := existingUser_mem hx
    obtain ⟨-, htable, hu⟩ := Users.save_eq_ok h
    -- the row takes the place of the one it was made from
    have hmem : ∀ r, r ∈ users.table.rows ↔ r = u ∨ (r ∈ db.users.table.rows ∧ r.id ≠ x.id) := by
      intro r
      rw [htable, hu]
      exact mem_upsert (Or.inr ⟨x, hmemx, rfl⟩)
    have hid : u.id = x.id := by
      rw [hu, upsert_old db.users.table l.now (a := l.userRow username (some x))
        (Table.key_ne_zero_of_mem hmemx : x.id ≠ 0)]
      rfl
    have hemail : u.email = x.email := by
      rw [hu, Users.saved_email]
      rfl
    refine ⟨fun v hv => ?_, (hmem u).mpr (Or.inl rfl), ?_, fun hno => (nomatch hno)⟩
    · by_cases hv' : v.id = x.id
      · rw [Table.eq_of_key_eq hv hmemx hv']
        exact ⟨u, (hmem u).mpr (Or.inl rfl), hid, hemail⟩
      · exact ⟨v, (hmem v).mpr (Or.inr ⟨hv, hv'⟩), rfl, rfl⟩
    · rintro x' hx'
      cases hx'
      exact ⟨hid, hemail⟩

end

/-- **What a login does** to users and accounts. The three writes are transactions of their own, so
a refused one leaves those before it. -/
theorem create_effect (site : Site) (db : Accounts) (l : FacebookLogin) :
    LoginEffect db l (l.create site db).1 (l.create site db).2.toOption := by
  unfold FacebookLogin.create FacebookLogin.createUser
  cases hfirst : l.firstName with
  -- a name that is missing ends the login before anything is written
  | none => exact .refused (.refl _) rfl
  | some firstName =>
    cases hlast : l.lastName with
    | none => exact .refused (.refl _) rfl
    | some lastName =>
      dsimp only
      cases hsave : db.users.save
          (l.userRow (site.unicode.toLowerCase (firstName ++ jc '.' :: lastName))
            (l.existingUser db)) l.now with
      | error e => exact .refused (.refl _) rfl
      | ok saved =>
        obtain ⟨users, u⟩ := saved
        obtain ⟨hkept, hu, hold, hnew⟩ := userRow_save hsave
        dsimp only
        generalize l.saveProfile firstName lastName db.profiles u.id = result
        obtain ⟨profiles, outcome⟩ := result
        cases outcome with
        | error e => exact .refused hkept rfl
        | ok =>
          dsimp only
          -- the user has been saved by now, linked or not
          cases hlink : SocialAccount.create db.socialAccounts .facebook u.id l.id l.token [] l.json
              l.now with
          | error e => exact .refused hkept rfl
          | ok linked =>
            obtain ⟨accounts, sa⟩ := linked
            obtain ⟨-, haccounts, hsa⟩ := SocialAccount.save_eq_ok hlink
            subst hsa
            exact .completed hkept hu hold hnew haccounts

/-- The Facebook id is linked to the user. -/
def FacebookLink (db : Accounts) (fbId : JString) (userId : Int) : Prop :=
  ∃ a ∈ db.socialAccounts.rows, a.provider = .facebook ∧ a.uid = fbId ∧ a.userId = userId

/-- The links after a completed login: those there were, and that of the login's own Facebook id to
the owner of the account. A known account keeps its owner. -/
theorem facebookLink_iff {db db' : Accounts} {l : FacebookLogin} {row : SocialAccount} {now : Int}
    {userId : Int}
    (hrow : row =
      SocialAccount.linked db.socialAccounts .facebook userId l.id l.token [] l.json l.now)
    (haccounts : db'.socialAccounts = (upsert db.socialAccounts row now).1) (fbId : JString)
    (i : Int) :
    FacebookLink db' fbId i ↔ FacebookLink db fbId i ∨ (fbId = l.id ∧ i = row.userId) := by
  have hprovider : row.provider = .facebook := hrow ▸ SocialAccount.linked_provider ..
  have huid : row.uid = l.id := hrow ▸ SocialAccount.linked_uid ..
  have hmem : ∀ a, a ∈ db'.socialAccounts.rows ↔
      a = (upsert db.socialAccounts row now).2 ∨ (a ∈ db.socialAccounts.rows ∧ a.id ≠ row.id) := by
    intro a
    rw [haccounts]
    exact mem_upsert (hrow ▸ SocialAccount.linked_id)
  -- the row that was saved shows the new link
  have hsaved : FacebookLink db' l.id row.userId := by
    refine ⟨_, (hmem _).mpr (Or.inl rfl), ?_, ?_, SocialAccount.saved_userId ..⟩
    · rw [SocialAccount.saved_provider, hprovider]
    · rw [SocialAccount.saved_uid, huid]
  constructor
  · rintro ⟨a, ha, haprovider, rfl, rfl⟩
    rcases (hmem a).mp ha with rfl | ⟨ha, -⟩
    · rw [SocialAccount.saved_uid, SocialAccount.saved_userId]
      exact Or.inr ⟨huid, rfl⟩
    · exact Or.inl ⟨a, ha, haprovider, rfl, rfl⟩
  · rintro (⟨a, ha, haprovider, rfl, rfl⟩ | ⟨rfl, rfl⟩)
    · by_cases hid : a.id = row.id
      · -- the row that is replaced is the one whose uid was found
        cases hx : SocialAccount.getByUid db.socialAccounts .facebook l.id with
        | none =>
          rw [hrow, SocialAccount.linked_id_of_none hx] at hid
          exact absurd hid (Table.key_ne_zero_of_mem ha)
        | some x =>
          obtain ⟨hxmem, -, hxuid⟩ := SocialAccount.getByUid_eq_some hx
          have hax : a = x := by
            rw [hrow, SocialAccount.linked_id_of_some hx] at hid
            exact Table.eq_of_key_eq ha hxmem hid
          have howner : row.userId = a.userId := by
            rw [hrow, SocialAccount.linked_userId, hx, hax]
            rfl
          rw [hax, hxuid, ← hax, ← howner]
          exact hsaved
      · exact ⟨a, (hmem a).mpr (Or.inr ⟨ha, hid⟩), haprovider, rfl, rfl⟩
    · exact hsaved

/-! ## Runs -/

/-- The links know the logins so far: each id that has logged in is linked to the user
its logins resolved to, and each linked user has the email of the id's first login. -/
structure Known (es : List Login) (db : Accounts) : Prop where
  logged : ∀ e ∈ es, FacebookLink db e.fbId e.userId
  mail : ∀ fbId userId, FacebookLink db fbId userId →
    ∃ u ∈ db.users.table.rows, u.id = userId ∧ firstEmail es fbId = some u.email

theorem known_start {db : Accounts} (h : ∀ a ∈ db.socialAccounts.rows, a.provider ≠ .facebook) :
    Known [] db := by
  refine ⟨fun _ he => (nomatch he), ?_⟩
  rintro fbId userId ⟨a, ha, hprovider, -⟩
  exact absurd hprovider (h a ha)

/-- A user who is kept still has the email. -/
theorem UsersKept.mail {us us' : Users} (h : UsersKept us us') {userId : Int}
    {mail : Option JString}
    (hold : ∃ u ∈ us.table.rows, u.id = userId ∧ mail = some u.email) :
    ∃ u ∈ us'.table.rows, u.id = userId ∧ mail = some u.email := by
  obtain ⟨u, hu, hid, hmail⟩ := hold
  obtain ⟨u', hu', hid', hemail'⟩ := h u hu
  exact ⟨u', hu', hid'.trans hid, hmail.trans (by rw [hemail'])⟩

section

variable {es : List Login} {db db' : Accounts} {l : FacebookLogin}

/-- A login that is refused changes no link. -/
theorem Known.refused (h : Known es db) (hkept : UsersKept db.users db'.users)
    (haccounts : db'.socialAccounts = db.socialAccounts) : Known es db' := by
  have hlink : ∀ {fbId userId}, FacebookLink db' fbId userId ↔ FacebookLink db fbId userId := by
    intro fbId userId
    unfold FacebookLink
    rw [haccounts]
  exact ⟨fun e he => hlink.mpr (h.logged e he), fun fbId userId hl =>
    hkept.mail (h.mail fbId userId (hlink.mp hl))⟩

/-- The user that a new id is linked to has the email of the login. -/
theorem mail_of_existingUser {u : User}
    (hno : SocialAccount.getByUid db.socialAccounts .facebook l.id = none)
    (hold : ∀ x, l.existingUser db = some x → u.id = x.id ∧ u.email = x.email)
    (hnew : l.existingUser db = none → u.email = l.mail) : u.email = l.mail := by
  cases hx : l.existingUser db with
  | none => exact hnew hx
  | some x =>
    rw [(hold x hx).2]
    unfold FacebookLogin.existingUser at hx
    rw [hno] at hx
    have hp := (Table.mem_of_fetchOne hx).2
    exact beq_iff_eq.mp hp

/-- **One login** keeps the links in step with the logins: every login so far has a link, and every
link leads to the user with the email of the first login under its id. -/
theorem Known.step {outcome : Option SocialAccount} (h : Known es db)
    (heff : LoginEffect db l db' outcome) :
    Known (es ++ (outcome.map fun sa => ⟨l.id, l.email, sa.userId⟩).toList) db' := by
  cases heff with
  | refused hkept haccounts =>
    rw [Option.map_none, Option.toList_none, List.append_nil]
    exact h.refused hkept haccounts
  | @completed u hkept hu hold hnew haccounts =>
    rw [Option.map_some, Option.toList_some, SocialAccount.saved_userId]
    generalize hrow :
      SocialAccount.linked db.socialAccounts .facebook u.id l.id l.token [] l.json l.now = row
    rw [hrow] at haccounts
    have hlink := facebookLink_iff hrow.symm haccounts
    have hstill : ∀ {fbId userId}, FacebookLink db fbId userId →
        ∃ v ∈ db'.users.table.rows, v.id = userId ∧
          firstEmail (es ++ [⟨l.id, l.email, row.userId⟩]) fbId = some v.email := by
      intro fbId userId hl
      obtain ⟨v, hv, hid, hmail⟩ := h.mail fbId userId hl
      exact hkept.mail ⟨v, hv, hid, firstEmail_append hmail _⟩
    refine ⟨fun e he => ?_, fun fbId userId hl => ?_⟩
    · rcases List.mem_append.mp he with he | he
      · exact (hlink _ _).mpr (Or.inl (h.logged e he))
      · rw [List.mem_singleton.mp he]
        exact (hlink _ _).mpr (Or.inr ⟨rfl, rfl⟩)
    · rcases (hlink fbId userId).mp hl with hl | ⟨rfl, rfl⟩
      · exact hstill hl
      · cases hx : SocialAccount.getByUid db.socialAccounts .facebook l.id with
        | some a =>
          have howner : row.userId = a.userId := by
            rw [← hrow, SocialAccount.linked_userId, hx]
            rfl
          obtain ⟨ha, hprovider, huid⟩ := SocialAccount.getByUid_eq_some hx
          exact hstill ⟨a, ha, hprovider, huid, howner.symm⟩
        | none =>
          have howner : row.userId = u.id := by
            rw [← hrow, SocialAccount.linked_userId, hx]
            rfl
          -- an id without account has never completed a login
          have hfirst : ∀ e ∈ es, e.fbId ≠ l.id := by
            intro e he heq
            obtain ⟨a, ha, hprovider, huid, -⟩ := h.logged e he
            exact SocialAccount.getByUid_eq_none hx ha hprovider (huid.trans heq)
          refine ⟨u, hu, howner.symm, ?_⟩
          rw [mail_of_existingUser hx hold hnew]
          exact firstEmail_new hfirst

/-- **Which user an id leads to** is decided by the email of its first login, as that is the email
of the user's row and no other row has it. -/
theorem sameUser_iff (h : Known es db) {e e' : Login} (he : e ∈ es) (he' : e' ∈ es) :
    e.userId = e'.userId ↔ firstEmail es e.fbId = firstEmail es e'.fbId := by
  obtain ⟨u, hu, hid, hmail⟩ := h.mail e.fbId e.userId (h.logged e he)
  obtain ⟨u', hu', hid', hmail'⟩ := h.mail e'.fbId e'.userId (h.logged e' he')
  rw [hmail, hmail', Option.some.injEq, ← hid, ← hid']
  constructor
  · intro hsame
    rw [Table.eq_of_key_eq hu hu' hsame]
  · intro hsame
    rw [db.users.email_unique u hu u' hu' hsame]

end

/-- **When Facebook identities stay separate**: in every run of logins on a store without
Facebook accounts, completed logins with different ids resolve to the same user only if
both carry the same email, exactly when ids whose first logins gave the same email (a
missing one counted as empty) carry the same email in all their logins, and carry one. -/
theorem facebookSeparate_iff (site : Site) {db : Accounts}
    (hstart : ∀ a ∈ db.socialAccounts.rows, a.provider ≠ .facebook) (run : List FacebookLogin) :
    Separate (logins site db run) ↔ EmailsTellApart (logins site db run) := by
  -- a login is completed or refused, never stuck
  obtain ⟨db', hrun⟩ : ∃ db', Run.exec (facebookStep site) db run = some db' :=
    Run.exists_exec (fun _ _ => ⟨_, rfl⟩) run db
  have hknown : Known ([] ++ logins site db run) db' := by
    refine Run.trace_invariant (C := fun _ _ => True) (K := Known) ?_ (known_start hstart)
      (Run.meets_of_forall (fun _ _ _ => trivial) db) hrun
    rintro es s l s' hs - hk
    cases hs
    exact hk.step (create_effect site s l)
  rw [List.nil_append] at hknown
  unfold Separate EmailsTellApart
  refine forall₂_congr fun e he => forall₂_congr fun e' he' => forall_congr' fun _ => ?_
  rw [sameUser_iff hknown he he']

/-- A login of Ann Lee, whose Facebook id is the character. -/
def annLee (fbId : Char) (email : Option JString) : FacebookLogin where
  token := js ['f', fbId]
  id := js [fbId]
  firstName := some (js ['A', 'n', 'n'])
  lastName := some (js ['L', 'e', 'e'])
  email := email
  bio := none
  about := none
  location := some []
  json := []
  accessToken := js ['t', fbId]
  secretKey := js ['s', fbId]
  now := 0

/-- Two people with an email each get a user each. -/
theorem facebookSeparate_twoEmails :
    (∀ a ∈ Accounts.empty.socialAccounts.rows, a.provider ≠ .facebook) ∧
    logins ⟨Unicode.ascii, id⟩ Accounts.empty
        [annLee '1' (some (js ['a'])), annLee '2' (some (js ['b']))] =
      [⟨js ['1'], some (js ['a']), 1⟩, ⟨js ['2'], some (js ['b']), 2⟩] ∧
    Separate (logins ⟨Unicode.ascii, id⟩ Accounts.empty
      [annLee '1' (some (js ['a'])), annLee '2' (some (js ['b']))]) := by
  have hstart : ∀ a ∈ Accounts.empty.socialAccounts.rows, a.provider ≠ .facebook :=
    fun _ h => nomatch h
  exact ⟨hstart, by decide, (facebookSeparate_iff _ hstart _).mpr (by decide)⟩

/-- Two people without email log in and share one user. -/
theorem strangers_share_user :
    ∃ (site : Site) (run : List FacebookLogin),
      logins site Accounts.empty run = [⟨js ['1'], none, 1⟩, ⟨js ['2'], none, 1⟩] ∧
      ¬ Separate (logins site Accounts.empty run) := by
  have hrun : logins ⟨Unicode.ascii, id⟩ Accounts.empty [annLee '1' none, annLee '2' none] =
      [⟨js ['1'], none, 1⟩, ⟨js ['2'], none, 1⟩] := by decide
  refine ⟨⟨Unicode.ascii, id⟩, [annLee '1' none, annLee '2' none], hrun, ?_⟩
  rw [hrun]
  decide

end Maiden
