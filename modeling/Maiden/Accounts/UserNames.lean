import Maiden.Accounts.LoginIsolation

/-!
# Generated user names

UserCreateAccount takes no user name from the client; `generateForUserName` makes one from the
first and the last name. It should be new, and one that `validateUserName` accepts. Two
normal forms stand in the way. The dot between the names becomes a dash, which
`validateUserName` does not allow, so that a name is valid only if its slug is a single word.
And whether a name is taken is asked of the friendly ids, whose hashes have dots where user
names have dashes.

`Named` is the invariant that ties the two tables: the hash a user's name asks for is taken,
by that user or by another one. For a single word that is the word itself, unless it is a
number, whose hash has a dash behind it. `userNames_iff` follows: the generated name is new
and valid exactly when the slug is a single word that is nobody's hash, and nobody's name if
it is a number.
-/

namespace Maiden

open JString FriendlyId

/-! ## Hashes that are taken -/

/-- A user has the hash. -/
def Taken (db : Table FriendlyId) (hash : JString) : Prop :=
  ∃ fi ∈ db.rows, fi.model = userModel ∧ fi.hash = hash

/-- The hash that a user name asks for. -/
def ownHash (U : Unicode) (userName : JString) : JString :=
  baseHash U (modelSlug U userModel userName)

/-- The table has a row with this hash for the user, in place of the user's former one. -/
def HashAdded (db : Table FriendlyId) (id : Int) (hash : JString) (db' : Table FriendlyId) : Prop :=
  ∃ row : FriendlyId, row.model = userModel ∧ row.modelId = id ∧ row.hash = hash ∧
    ∀ r, r ∈ db'.rows ↔ r = row ∨ (r ∈ db.rows ∧ ¬ (r.model = userModel ∧ r.modelId = id))

section

variable {U : Unicode} {db db' : Table FriendlyId} {id : Int} {userName hash : JString}

/-- The final hash depends on the rows of the others alone. -/
theorem finalHash_congr
    (h : ∀ r : FriendlyId, ¬ (r.model = userModel ∧ r.modelId = id) →
      (r ∈ db.rows ↔ r ∈ db'.rows)) :
    finalHash U db userModel id userName = finalHash U db' userModel id userName := by
  have hclash : Clash U db userModel id userName ↔ Clash U db' userModel id userName :=
    exists_congr fun r => and_congr_left fun hr => h r fun hown => hr.2.2 hown.2
  rcases finalHash_spec U db userModel id userName with ⟨hyes, heq⟩ | ⟨hno, heq⟩
  · rcases finalHash_spec U db' userModel id userName with ⟨-, heq'⟩ | ⟨hno', -⟩
    · rw [heq, heq']
    · exact absurd (hclash.mp hyes) hno'
  · rcases finalHash_spec U db' userModel id userName with ⟨hyes', -⟩ | ⟨-, heq'⟩
    · exact absurd (hclash.mpr hyes') hno
    · rw [heq, heq']

theorem hashAdded_generate (h : OneRow db) (now : Int) :
    HashAdded db id (finalHash U db userModel id userName)
      (FriendlyId.generate U db userModel id userName now).1 :=
  ⟨_, generate_model .., generate_modelId .., generate_hash .., fun _ =>
    mem_generate U userModel id userName now h⟩

theorem HashAdded.oneRow (h : OneRow db) (hadd : HashAdded db id hash db') : OneRow db' := by
  obtain ⟨row, hmodel, hid, -, hmem⟩ := hadd
  refine h.replace row fun r => ?_
  rw [hmodel, hid]
  exact hmem r

/-- A second call for the user comes to the same hash. -/
theorem HashAdded.again (h : OneRow db)
    (hadd : HashAdded db id (finalHash U db userModel id userName) db') (now : Int) :
    HashAdded db id (finalHash U db userModel id userName)
      (FriendlyId.generate U db' userModel id userName now).1 := by
  have h' := hadd.oneRow h
  obtain ⟨row, hmodel, hid, -, hmem⟩ := hadd
  have hothers : ∀ r : FriendlyId, ¬ (r.model = userModel ∧ r.modelId = id) →
      (r ∈ db.rows ↔ r ∈ db'.rows) := by
    intro r hr
    rw [hmem r, or_iff_right fun heq : r = row => hr (heq ▸ ⟨hmodel, hid⟩), and_iff_left hr]
  refine ⟨(FriendlyId.generate U db' userModel id userName now).2, generate_model ..,
    generate_modelId .., ?_, fun r => ?_⟩
  · rw [generate_hash]
    exact (finalHash_congr hothers).symm
  · rw [mem_generate U userModel id userName now h']
    exact or_congr_right (and_congr_left fun hr => (hothers r hr).symm)

/-- Afterwards somebody has the hash that the name asks for. -/
theorem HashAdded.taken_own (hadd : HashAdded db id (finalHash U db userModel id userName) db') :
    Taken db' (ownHash U userName) := by
  obtain ⟨row, hmodel, hid, hhash, hmem⟩ := hadd
  rcases finalHash_spec U db userModel id userName with ⟨hclash, -⟩ | ⟨-, heq⟩
  · obtain ⟨fi, hfi, hfimodel, hfihash, hne⟩ := hclash
    exact ⟨fi, (hmem fi).mpr (Or.inr ⟨hfi, fun hown => hne hown.2⟩), hfimodel, hfihash⟩
  · exact ⟨row, (hmem row).mpr (Or.inl rfl), hmodel, hhash.trans heq⟩

end

/-! ## What a request does to names -/

/-- A request adds no user, or one with the generated name, and a friendly id for it; a user
that is returned is the one that was added. -/
inductive NameEffect (site : Site) (db : Accounts) (r : UserCreateAccount) (db' : Accounts)
    (outcome : Except Failure User) : Prop
  | refused (hfailed : ∀ v, outcome ≠ .ok v) (husers : db'.users = db.users)
      (hids : db'.friendlyIds = db.friendlyIds)
  | added (u : User) (hreturned : ∀ v, outcome = .ok v → v = u)
      (hid : u.id = db.users.table.nextKey) (hname : u.userName = r.userName site db)
      (husers : ∀ u', u' ∈ db'.users.table.rows ↔ u' ∈ db.users.table.rows ∨ u' = u)
      (hids : OneRow db.friendlyIds → HashAdded db.friendlyIds u.id
        (finalHash site.unicode db.friendlyIds userModel u.id u.userName) db'.friendlyIds)

section

variable (site : Site) (db : Accounts) (r : UserCreateAccount)

variable {site db r} in
theorem names_of_outcome {result : Accounts × Except Failure User}
    (houtcome : User.CreateOutcome site db (r.userName site db) r.password r.email r.accessToken
      r.secretKey r.now result) : NameEffect site db r result.1 result.2 := by
  cases houtcome with
  | refused e hno => exact .refused (fun _ heq => nomatch heq) rfl rfl
  | unlinked users u e hsave hname haccount =>
    -- the friendly id is generated before the account is refused
    obtain ⟨hid, husers⟩ := Users.mem_save_new rfl hsave
    exact .added u (fun _ heq => nomatch heq) hid hname husers fun h => hashAdded_generate h r.now
  | created users u accounts sa hunknown hunreserved hsave hname hemail haccount =>
    obtain ⟨hid, husers⟩ := Users.mem_save_new rfl hsave
    exact .added u (fun _ heq => (Except.ok.inj heq).symm) hid hname husers fun h =>
      hashAdded_generate h r.now

theorem register_names : NameEffect site db r (r.register site db).1 (r.register site db).2 := by
  rcases r.register_cases site db with ⟨e, heq, -⟩ | ⟨-, -, heq⟩
  · rw [heq]
    exact .refused (fun _ heq => nomatch heq) rfl rfl
  · rw [heq]
    exact names_of_outcome (User.createIdentity_outcome ..)

/-- **What a request does** to names. The reply generates the friendly id once more, which finds
the row of the user and leaves its hash. -/
theorem execute_names : NameEffect site db r (r.execute site db).1 (r.execute site db).2 := by
  have hregister := register_names site db r
  unfold UserCreateAccount.execute
  generalize r.register site db = result at hregister
  obtain ⟨db', outcome⟩ := result
  cases outcome with
  | error e => exact hregister
  | ok v =>
    cases hregister with
    | refused hfailed => exact absurd rfl (hfailed v)
    | added u hreturned hid hname husers hids =>
      obtain rfl := hreturned v rfl
      dsimp only
      unfold UserCreateAccount.introduce
      dsimp only
      split
      · exact .added v (fun _ heq => nomatch heq) hid hname husers hids
      · exact .added v (fun _ heq => (Except.ok.inj heq).symm) hid hname husers fun h =>
          (hids h).again h r.now

end

/-! ## The invariant -/

/-- Every friendly id of a user belongs to one, and the hash that a user's name asks for is
taken. -/
structure Named (U : Unicode) (db : Accounts) : Prop where
  oneRow : OneRow db.friendlyIds
  owned : ∀ fi ∈ db.friendlyIds.rows, fi.model = userModel →
    ∃ u ∈ db.users.table.rows, u.id = fi.modelId
  taken : ∀ u ∈ db.users.table.rows, Taken db.friendlyIds (ownHash U u.userName)

theorem named_empty (U : Unicode) : Named U Accounts.empty :=
  ⟨fun _ h => (nomatch h), fun _ h => (nomatch h), fun _ h => (nomatch h)⟩

/-- One request keeps every friendly id with a user and the hash of every user's name taken. -/
theorem Named.step {site : Site} {db db' : Accounts} {r : UserCreateAccount}
    {outcome : Except Failure User} (h : Named site.unicode db)
    (heff : NameEffect site db r db' outcome) : Named site.unicode db' := by
  cases heff with
  | refused _ husers hids =>
    refine ⟨hids ▸ h.oneRow, ?_, ?_⟩
    · rw [hids, husers]
      exact h.owned
    · rw [hids, husers]
      exact h.taken
  | added u _ hid hname husers hids =>
    have hadd := hids h.oneRow
    refine ⟨hadd.oneRow h.oneRow, ?_, ?_⟩
    · obtain ⟨row, -, hrowid, -, hmem⟩ := hadd
      intro fi hfi hmodel
      rcases (hmem fi).mp hfi with rfl | ⟨hfi, -⟩
      · exact ⟨u, (husers u).mpr (Or.inr rfl), hrowid.symm⟩
      · obtain ⟨v, hv, hvid⟩ := h.owned fi hfi hmodel
        exact ⟨v, (husers v).mpr (Or.inl hv), hvid⟩
    · intro v hv
      rcases (husers v).mp hv with hv | rfl
      · -- the id is new, so no row is replaced
        obtain ⟨fi, hfi, hmodel, hhash⟩ := h.taken v hv
        obtain ⟨row, -, -, -, hmem⟩ := hadd
        refine ⟨fi, (hmem fi).mpr (Or.inr ⟨hfi, fun hown => ?_⟩), hmodel, hhash⟩
        obtain ⟨w, hw, hwid⟩ := h.owned fi hfi hmodel
        have hlt : w.id < db.users.table.nextKey := Table.key_lt_nextKey hw
        have := hown.2
        omega
      · exact hadd.taken_own

/-! ## New and valid names -/

/-- Nobody has the name, and it is a valid one. -/
def FreshAndValid (db : Accounts) (userName : JString) : Prop :=
  (∀ u ∈ db.users.table.rows, u.userName ≠ userName) ∧
    User.validateUserName userName = .ok userName

/-- The slug of a name, cut to 30 units and without the dashes at its end. -/
def word (U : Unicode) (baseName : JString) : JString :=
  stripTrailing (jc '-') (cutSlug U baseName)

/-- The slug is a single word of a proper length that is nobody's hash, and if it is a number,
nobody's name. -/
structure SingleWord (U : Unicode) (db : Accounts) (baseName : JString) : Prop where
  notDigits : (cutSlug U baseName).all U.isDigit = false
  short : 3 ≤ (word U baseName).length
  long : (word U baseName).length ≤ 24
  plain : ∀ c ∈ word U baseName, Text.isPlain c = true
  untaken : ¬ Taken db.friendlyIds (word U baseName)
  unnamed : (∀ c ∈ word U baseName, isAsciiDigit c = true) →
    ∀ u ∈ db.users.table.rows, u.userName ≠ word U baseName

section

variable {U : Unicode} {db : Accounts} {baseName s : JString}

/-- A word asks for itself, unless it is a number. -/
theorem ownHash_of_plain (hplain : ∀ c ∈ s, Text.isPlain c = true) (hlength : s.length ≤ 24)
    (hletter : ∃ c ∈ s, isAsciiDigit c = false) : ownHash U s = s := by
  have hdash : jc '-' ∉ s := fun hc => absurd (hplain _ hc) (by decide)
  have hslug : cutSlug U s = s := by
    unfold cutSlug
    rw [Text.slugify_of_plain U hplain]
    exact if_neg (by omega)
  have hmodel : modelSlug U userModel s = s := by
    unfold modelSlug
    rw [if_neg (not_not.mpr rfl), hslug, replaceChar_of_not_mem hdash]
  have hdigits : ¬ s.all U.isDigit = true := by
    obtain ⟨c, hc, hno⟩ := hletter
    intro hall
    have hdigit := List.all_eq_true.mp hall c hc
    have hrange := Text.isPlain_iff.mp (hplain c hc)
    rw [Unicode.isDigit, U.digit_none c (by omega) hno] at hdigit
    cases hdigit
  unfold ownHash baseHash
  rw [hmodel, if_neg hdigits, stripTrailing_of_not_mem hdash]

theorem taken_iff {ids : Table FriendlyId} {hash : JString} :
    (ids.fetch fun fi => fi.model == userModel && fi.hash == hash).length = 0 ↔
      ¬ Taken ids hash := by
  rw [List.length_eq_zero_iff, List.eq_nil_iff_forall_not_mem]
  simp only [Table.mem_fetch, Bool.and_eq_true, beq_iff_eq, Taken, not_exists]

/-- The generated name is the word, if it is not taken, or has a dash: what is appended to a taken
word and to a number begins with one. -/
theorem generateForUserName_cases (U : Unicode) (ids : Table FriendlyId) (baseName : JString) :
    (generateForUserName U ids baseName = word U baseName ∧ ¬ Taken ids (word U baseName) ∧
      (cutSlug U baseName).all U.isDigit = false) ∨
    ((Taken ids (word U baseName) ∨ (cutSlug U baseName).all U.isDigit = true) ∧
      jc '-' ∈ generateForUserName U ids baseName) := by
  unfold generateForUserName
  dsimp only
  cases hall : (cutSlug U baseName).all U.isDigit with
  | true =>
    refine Or.inr ⟨Or.inr rfl, ?_⟩
    have hdash : jc '-' ∈ baseHash U (cutSlug U baseName) := by
      rw [baseHash, if_pos hall]
      exact List.mem_append_right _ List.mem_cons_self
    split
    · exact hdash
    · exact List.mem_append_left _ hdash
  | false =>
    have hbase : baseHash U (cutSlug U baseName) = word U baseName := by
      rw [baseHash, if_neg (by rw [hall]; decide)]
      rfl
    rw [hbase]
    split
    · next hnone => exact Or.inl ⟨rfl, taken_iff.mp hnone, rfl⟩
    · next hsome =>
      refine Or.inr ⟨Or.inl (not_not.mp fun hno => hsome (taken_iff.mpr hno)), ?_⟩
      exact List.mem_append_right _ List.mem_cons_self

theorem not_validChars_of_dash {name : JString} (h : jc '-' ∈ name) :
    User.onlyValidChars name = false := by
  rw [← Bool.not_eq_true, User.onlyValidChars, List.all_eq_true]
  exact fun hall => absurd (hall _ h) (by decide)

/-- Of the valid characters a slug has only small letters and digits. -/
theorem validChars_word_iff (hU : U.NoCapitals) :
    User.onlyValidChars (word U baseName) = true ↔
      ∀ c ∈ word U baseName, Text.isPlain c = true := by
  have hslug : ∀ c ∈ word U baseName, c ∈ Text.slugify U baseName := fun c hc =>
    mem_slugify_of_mem_cutSlug (mem_of_mem_dropEnd hc)
  rw [User.onlyValidChars, List.all_eq_true]
  refine forall₂_congr fun c hc => ?_
  have hupper : isUpper c = false := by
    rw [← Bool.not_eq_true]
    exact fun hup => Text.not_mem_slugify_of_upper U hU baseName hup (hslug c hc)
  have hdot : c ≠ jc '.' := fun heq =>
    Text.not_mem_slugify U baseName (c := jc '.') (by decide) (by decide) (heq ▸ hslug c hc)
  rw [hupper, beq_eq_false_iff_ne.mpr hdot, Bool.or_false, Bool.or_false]
  rfl

/-- **The name can be registered exactly if it is a single new word**, since a dash is not allowed
in user names and every generated name but the plain word has one. -/
theorem freshAndValid_iff (hU : U.NoCapitals) (h : Named U db) :
    FreshAndValid db (generateForUserName U db.friendlyIds baseName) ↔
      SingleWord U db baseName := by
  unfold FreshAndValid
  rw [User.validateUserName_eq_ok_iff]
  rcases generateForUserName_cases U db.friendlyIds baseName with
    ⟨hname, huntaken, hdigits⟩ | ⟨hwhy, hdash⟩
  · rw [hname, validChars_word_iff hU]
    constructor
    · rintro ⟨hfresh, hshort, hlong, hplain⟩
      exact ⟨hdigits, hshort, hlong, hplain, huntaken, fun _ => hfresh⟩
    · intro hw
      refine ⟨fun u hu heq => ?_, hw.short, hw.long, hw.plain⟩
      by_cases hnumber : ∀ c ∈ word U baseName, isAsciiDigit c = true
      · exact hw.unnamed hnumber u hu heq
      · -- a user of that name would have made it somebody's hash
        have hletter : ∃ c ∈ word U baseName, isAsciiDigit c = false := by
          simpa using hnumber
        have htaken := h.taken u hu
        rw [heq, ownHash_of_plain hw.plain hw.long hletter] at htaken
        exact huntaken htaken
  · refine iff_of_false ?_ ?_
    · rintro ⟨-, -, -, hchars⟩
      rw [not_validChars_of_dash hdash] at hchars
      cases hchars
    · intro hw
      rcases hwhy with htaken | hall
      · exact hw.untaken htaken
      · cases hw.notDigits.symm.trans hall

end

/-- **When generated user names are new and valid**: in every store that UserCreateAccount
requests lead to, for all names, exactly when the slug is a single word that is nobody's hash. -/
theorem userNames_iff (site : Site) (hU : site.unicode.NoCapitals) (run : List UserCreateAccount) :
    Run.Throughout (Registry.step site) (fun s => ∀ firstName lastName : JString,
      FreshAndValid s.db (generateForUserName site.unicode s.db.friendlyIds
        (firstName ++ jc '.' :: lastName)) ↔
      SingleWord site.unicode s.db (firstName ++ jc '.' :: lastName)) Registry.init run := by
  refine Run.throughout_of_meets (C := fun _ _ => True)
    (I := fun s => Named site.unicode s.db) ?_ ?_
    (named_empty _) (Run.meets_of_forall (fun _ _ _ => trivial) _)
  · rintro s r s' hstep - h
    cases hstep
    exact h.step (execute_names site s.db r)
  · exact fun s h firstName lastName => freshAndValid_iff hU h

/-- After John Smith, somebody who gives `Ann` and no last name gets the name `ann`. -/
theorem userNames_ann :
    SingleWord plainSite.unicode ((johnSmith 'a' 1).execute plainSite Accounts.empty).1
      (js ['A', 'n', 'n'] ++ jc '.' :: []) ∧
    FreshAndValid ((johnSmith 'a' 1).execute plainSite Accounts.empty).1
      (generateForUserName plainSite.unicode
        ((johnSmith 'a' 1).execute plainSite Accounts.empty).1.friendlyIds
        (js ['A', 'n', 'n'] ++ jc '.' :: [])) := by
  have hword : SingleWord plainSite.unicode ((johnSmith 'a' 1).execute plainSite Accounts.empty).1
      (js ['A', 'n', 'n'] ++ jc '.' :: []) :=
    ⟨by decide, by decide, by decide, by decide, by unfold Taken; decide, by decide⟩
  have hrun := userNames_iff plainSite Unicode.noCapitals_ascii [johnSmith 'a' 1]
  exact ⟨hword, (hrun.2 _ rfl (js ['A', 'n', 'n']) []).mpr hword⟩

/-- After John Smith, the next John Smith gets the same name, and it is not valid either time. -/
theorem john_smith_again :
    ∃ (site : Site) (run : List UserCreateAccount) (s : Registry) (name : JString),
      Run.exec (Registry.step site) Registry.init run = some s ∧
      name = generateForUserName site.unicode s.db.friendlyIds
        (js ['J', 'o', 'h', 'n'] ++ jc '.' :: js ['S', 'm', 'i', 't', 'h']) ∧
      (∃ u ∈ s.db.users.table.rows, u.userName = name) ∧
      User.validateUserName name = .error .invalidUserName ∧ ¬ FreshAndValid s.db name := by
  have huser : ∃ u ∈ ((johnSmith 'a' 1).execute plainSite Accounts.empty).1.users.table.rows,
      u.userName = js ['j', 'o', 'h', 'n', '-', 's', 'm', 'i', 't', 'h'] := by decide
  refine ⟨plainSite, [johnSmith 'a' 1], _, js ['j', 'o', 'h', 'n', '-', 's', 'm', 'i', 't', 'h'],
    rfl, by decide, huser, by decide, fun hok => ?_⟩
  obtain ⟨u, hu, hname⟩ := huser
  exact hok.1 u hu hname

end Maiden
